import KoalaStreamer.Library.RunRules
import KoalaStreamer.MuxerRerun

/-!
# koala_muxer.c: a session and libavformat

`mediaStreamer_prepare_internal` prepares a handle and starts it, or leaves it when the
preparation fails; `mediaStreamer_stop` ends and closes it, or `mediaStreamer_release`
closes what was never started.  The caller and the mux thread both call libavformat, which
wants its functions called in an order: streams are added before the header, packets come
between the header and the trailer and carry the index of a stream of their type, and the
I/O handle is closed once before the context is freed once.

Main result: `session_keeps_protocol`: in every run they are called in this order, and a
handle that is closed leaves nothing behind.
-/

namespace KoalaStreamer

open CStrings EventMachine

/-! ## libavformat -/

section Protocol

/-- A call of libavformat, with what matters of its arguments and its answer. -/
inductive AvCall
  | allocContext (oc : ℕ)
  /-- `avformat_new_stream`, and the type that the stream is given. -/
  | newStream (stream : StreamType) (index : ℕ)
  | openIo (pb : ℕ)
  | writeHeader (ret : Int)
  | writeFrame (stream : StreamType) (streamIndex : Int)
  | writeTrailer
  | closeIo (pb : ℕ)
  | freeContext (oc : ℕ)
deriving DecidableEq, Repr

inductive AvPhase
  /-- Before the header. -/
  | adding
  | writing
  /-- After the trailer. -/
  | trailed
  /-- The header was not written, or the I/O handle is closed. -/
  | ended
deriving DecidableEq, Repr

/-- An output context in use. -/
structure AvOutput where
  oc : ℕ
  streams : List StreamType
  pb : Option ℕ
  phase : AvPhase
deriving DecidableEq, Repr

/-- The order in which the calls may be made. -/
def avAllows : Option AvOutput → AvCall → Option (Option AvOutput)
  | none, .allocContext oc => some (some ⟨oc, [], none, .adding⟩)
  | some o, .newStream stream index =>
      if o.phase = .adding ∧ index = o.streams.length then
        some (some { o with streams := o.streams ++ [stream] })
      else none
  | some o, .openIo pb =>
      if o.phase = .adding ∧ o.pb = none then some (some { o with pb := some pb }) else none
  | some o, .writeHeader ret =>
      if o.phase = .adding then
        some (some { o with phase := if ret < 0 then .ended else .writing })
      else none
  | some o, .writeFrame stream streamIndex =>
      if o.phase = .writing ∧ 0 ≤ streamIndex ∧ o.streams[streamIndex.toNat]? = some stream then
        some (some o)
      else none
  | some o, .writeTrailer =>
      if o.phase = .writing then some (some { o with phase := .trailed }) else none
  | some o, .closeIo pb =>
      if o.phase ≠ .writing ∧ o.pb = some pb then
        some (some { o with pb := none, phase := .ended })
      else none
  | some o, .freeContext oc =>
      if o.phase ≠ .writing ∧ o.pb = none ∧ o.oc = oc then some none else none
  | _, _ => none

/-- The protocol as a machine, which shows the calls it is given. -/
def avStep : Machine (Option AvOutput) AvCall AvCall :=
  fun o call => (avAllows o call).map fun o' => (o', [call])

/-- The calls may be made, in this order. -/
def Follows (o : Option AvOutput) (calls : List AvCall) (o' : Option AvOutput) : Prop :=
  ∃ tr, Run avStep o tr o' ∧ eventsOf tr = calls

variable {o o' o'' : Option AvOutput} {call : AvCall} {calls calls' : List AvCall}

theorem Follows.nil
    (o : Option AvOutput) :
    Follows o [] o :=
  ⟨[], Run.nil, rfl⟩

theorem Follows.single
    (h : avAllows o call = some o') :
    Follows o [call] o' := by
  have hstep : avStep o call = some (o', [call]) := by
    rw [avStep, h]
    rfl
  exact ⟨_, Run.single hstep, rfl⟩

theorem Follows.append
    (h : Follows o calls o') (h' : Follows o' calls' o'') :
    Follows o (calls ++ calls') o'' := by
  obtain ⟨tr, run, rfl⟩ := h
  obtain ⟨tr', run', rfl⟩ := h'
  exact ⟨tr ++ tr', run.append run', eventsOf_append tr tr'⟩

end Protocol

/-! ## The calls of the handle -/

section Calls

/-- The types of the streams in the order in which `koala_muxer_init_open` adds them. -/
def KoalaMuxer.codecTypes (pHandle : KoalaMuxer) : List StreamType :=
  (if pHandle.acb then [.audio] else []) ++ (if pHandle.vcb then [.video] else [])

def OpenEvent.avCall (types : List StreamType) : OpenEvent → Option AvCall
  | .contextAllocated oc => some (.allocContext oc)
  | .contextFreed oc => some (.freeContext oc)
  | .streamAdded index => some (.newStream (types.getD index .video) index)
  | .headerWritten ret => some (.writeHeader ret)
  | .ioOpened pb => some (.openIo pb)
  | .ioClosed pb => some (.closeIo pb)
  | _ => none

def MuxEvent.avCall : MuxEvent → Option AvCall
  | .submitted stream _ _ _ pkt _ => some (.writeFrame stream pkt.streamIndex)
  | .trailer => some .writeTrailer
  | _ => none

def MuxerEvent.avCall (types : List StreamType) : MuxerEvent → Option AvCall
  | .init e => e.avCall types
  | .mux e => e.avCall

/-- The calls of `koala_muxer_init_open` and `koala_muxer_close`. -/
def openCalls (types : List StreamType) (es : List OpenEvent) : List AvCall :=
  es.filterMap (OpenEvent.avCall types)

/-- The calls of `mux_thread`. -/
def muxCalls (es : List MuxEvent) : List AvCall :=
  es.filterMap MuxEvent.avCall

theorem openCalls_append
    (types : List StreamType) (es es' : List OpenEvent) :
    openCalls types (es ++ es') = openCalls types es ++ openCalls types es' :=
  List.filterMap_append

theorem muxCalls_append
    (es es' : List MuxEvent) :
    muxCalls (es ++ es') = muxCalls es ++ muxCalls es' :=
  List.filterMap_append

end Calls

/-! ## koala_muxer_init_open -/

section Open

variable {types : List StreamType} {s s' : OpenState} {a : InitOpenAnswers}

/-- The context of the function is that of the protocol. -/
structure Building (types : List StreamType) (s : OpenState) : Prop where
  follows : Follows none (openCalls types s.events)
    (some ⟨s.oc.id, types.take s.oc.nbStreams, s.oc.pb, .adding⟩)
  io : s.oc.oformat.noFile = true → s.oc.pb = none

/-- A part has failed: the context may be closed and freed. -/
structure Abandoned (types : List StreamType) (s : OpenState) : Prop where
  follows : ∃ o, Follows none (openCalls types s.events) (some o) ∧ o.oc = s.oc.id ∧
    o.pb = s.oc.pb ∧ o.phase ≠ .writing
  io : s.oc.oformat.noFile = true → s.oc.pb = none

theorem Building.abandoned
    (h : Building types s) :
    Abandoned types s :=
  ⟨⟨_, h.follows, rfl, rfl, by simp⟩, h.io⟩

/-- What is no call of libavformat does not matter. -/
theorem Building.quiet
    {e : OpenEvent} (h : Building types s) (he : e.avCall types = none) :
    Building types (s.emit e) := by
  refine ⟨?_, h.io⟩
  rw [OpenState.emit, openCalls_append]
  have hnone : openCalls types [e] = [] := by
    rw [openCalls, List.filterMap_cons_none he]
    rfl
  rw [hnone, List.append_nil]
  exact h.follows

/-- `avformat_new_stream`. -/
theorem Building.newStream
    (h : Building types s) (hmore : s.oc.nbStreams < types.length) :
    Building types s.newStream := by
  refine ⟨?_, h.io⟩
  rw [OpenState.newStream, OpenState.emit, openCalls_append]
  refine h.follows.append (Follows.single ?_)
  have hlength : (types.take s.oc.nbStreams).length = s.oc.nbStreams := by
    rw [List.length_take]
    omega
  have htake : types.take (s.oc.nbStreams + 1) =
      types.take s.oc.nbStreams ++ [types.getD s.oc.nbStreams .video] := by
    rw [List.take_succ_eq_append_getElem hmore, List.getD_eq_getElem?_getD,
      List.getElem?_eq_getElem hmore]
    rfl
  rw [avAllows, if_pos ⟨rfl, hlength.symm⟩, htake]

/-- A part ends as `P` says, or is abandoned at the label `fail`. -/
def PartEnds (types : List StreamType) (P : OpenState → Prop) :
    Except OpenState OpenState → Prop
  | .ok s => P s
  | .error s => Abandoned types s

theorem PartEnds.bind
    {P Q : OpenState → Prop} {x : Except OpenState OpenState} {part : OpenPart}
    (h : PartEnds types P x) (hpart : ∀ s, P s → PartEnds types Q (part s)) :
    PartEnds types Q (x.bind part) := by
  cases x with
  | ok s =>
      exact hpart s h
  | error s =>
      exact h

/-- A call whose result is tested. -/
theorem PartEnds.call
    {P : OpenState → Prop} {ret : Int} {failed called : OpenState}
    (hfailed : ret < 0 → Abandoned types failed) (hcalled : 0 ≤ ret → P called) :
    PartEnds types P (if ret < 0 then .error failed else .ok called) := by
  split
  · rename_i hret
    exact hfailed hret
  · rename_i hret
    exact hcalled (Int.not_lt.mp hret)

/-- The handle has the callbacks of `pHandle` and the indices of their streams. -/
structure Indexed (pHandle muxer : KoalaMuxer) : Prop where
  acb : muxer.acb = pHandle.acb
  vcb : muxer.vcb = pHandle.vcb
  audio : pHandle.acb = true → muxer.audioStream = 0
  video : pHandle.vcb = true → muxer.videStream = if pHandle.acb then 1 else 0

/-- With the context, before the audio stream. -/
structure NoStream (pHandle : KoalaMuxer) (s : OpenState) : Prop where
  building : Building pHandle.codecTypes s
  pb : s.oc.pb = none
  count : s.oc.nbStreams = 0
  muxer : s.pHandle.muxer = pHandle

/-- Before the video stream. -/
structure AudioAdded (pHandle : KoalaMuxer) (s : OpenState) : Prop where
  building : Building pHandle.codecTypes s
  pb : s.oc.pb = none
  count : s.oc.nbStreams = if pHandle.acb then 1 else 0
  acb : s.pHandle.muxer.acb = pHandle.acb
  vcb : s.pHandle.muxer.vcb = pHandle.vcb
  audio : pHandle.acb = true → s.pHandle.muxer.audioStream = 0

/-- With all streams. -/
structure Added (pHandle : KoalaMuxer) (s : OpenState) : Prop where
  building : Building pHandle.codecTypes s
  pb : s.oc.pb = none
  count : s.oc.nbStreams = pHandle.codecTypes.length
  indexed : Indexed pHandle s.pHandle.muxer

/-- Before the header. -/
structure IoOpened (pHandle : KoalaMuxer) (s : OpenState) : Prop where
  building : Building pHandle.codecTypes s
  count : s.oc.nbStreams = pHandle.codecTypes.length
  indexed : Indexed pHandle s.pHandle.muxer

/-- After the header. -/
structure HeaderWritten (pHandle : KoalaMuxer) (s : OpenState) : Prop where
  follows : Follows none (openCalls pHandle.codecTypes s.events)
    (some ⟨s.oc.id, pHandle.codecTypes, s.oc.pb, .writing⟩)
  io : s.oc.oformat.noFile = true → s.oc.pb = none
  indexed : Indexed pHandle s.pHandle.muxer

variable {pHandle : KoalaMuxer}

theorem codecTypes_length
    (pHandle : KoalaMuxer) :
    pHandle.codecTypes.length =
      (if pHandle.acb then 1 else 0) + (if pHandle.vcb then 1 else 0) := by
  cases hacb : pHandle.acb <;> cases hvcb : pHandle.vcb <;>
    simp [KoalaMuxer.codecTypes, hacb, hvcb]

theorem openAudio_adds
    (h : NoStream pHandle s) :
    PartEnds pHandle.codecTypes (AudioAdded pHandle) (openAudio a s) := by
  obtain ⟨hbuilding, hpb, hcount, rfl⟩ := h
  rw [openAudio]
  split
  · rename_i hacb
    have hasked : Building s.pHandle.muxer.codecTypes
        (s.emit (.metaAsked .audio a.audioMeta.ret)) :=
      hbuilding.quiet rfl
    refine PartEnds.call (fun _ => hasked.abandoned) (fun _ => ?_)
    have hmore : s.oc.nbStreams < s.pHandle.muxer.codecTypes.length := by
      rw [codecTypes_length, hcount, if_pos hacb]
      omega
    have hnew := hasked.newStream hmore
    refine ⟨⟨hnew.follows, hnew.io⟩, hpb, ?_, ?_, ?_, ?_⟩
    · rw [if_pos hacb]
      exact congrArg (· + 1) hcount
    · exact (initOpenAudio_callbacks _ _ _ _).1
    · exact (initOpenAudio_callbacks _ _ _ _).2.1
    · intro _
      simp [OpenState.setMuxer, initOpenAudio, hacb, hcount]
  · rename_i hacb
    refine ⟨hbuilding, hpb, ?_, rfl, rfl, fun h => absurd h hacb⟩
    rw [if_neg hacb, hcount]

theorem openVideo_adds
    (h : AudioAdded pHandle s) :
    PartEnds pHandle.codecTypes (Added pHandle) (openVideo a s) := by
  rw [openVideo]
  split
  · rename_i hvcb
    have hvcb' : pHandle.vcb = true := h.vcb ▸ hvcb
    have hmore : s.oc.nbStreams < pHandle.codecTypes.length := by
      rw [codecTypes_length, h.count, if_pos hvcb']
      omega
    have hasked : Building pHandle.codecTypes
        (s.newStream.emit (.metaAsked .video a.videoMeta.ret)) :=
      (h.building.newStream hmore).quiet rfl
    refine PartEnds.call (fun _ => hasked.abandoned) (fun _ => ?_)
    refine ⟨⟨hasked.follows, hasked.io⟩, h.pb, ?_, ?_, ?_, ?_, ?_⟩
    · rw [codecTypes_length, if_pos hvcb']
      exact congrArg (· + 1) h.count
    · exact ((initOpenVideo_callbacks _ _ _).1).trans h.acb
    · exact ((initOpenVideo_callbacks _ _ _).2.1).trans h.vcb
    · intro hacb
      have haudio := h.audio hacb
      simpa [OpenState.setMuxer, initOpenVideo, hvcb] using haudio
    · intro _
      simp only [OpenState.setMuxer, initOpenVideo, hvcb, if_true, h.count]
      split <;> rfl
  · rename_i hvcb
    have hvcb' : ¬pHandle.vcb = true := fun hv => hvcb (h.vcb.trans hv)
    refine ⟨h.building, h.pb, ?_, h.acb, h.vcb, h.audio, fun hv => absurd hv hvcb'⟩
    rw [codecTypes_length, h.count, if_neg hvcb', Nat.add_zero]

theorem openIo_opens
    (h : Added pHandle s) :
    PartEnds pHandle.codecTypes (IoOpened pHandle) (openIo a s) := by
  rw [openIo]
  split
  · exact ⟨h.building, h.count, h.indexed⟩
  · rename_i hfile
    have hasked : Building pHandle.codecTypes
        ({ s with ret := a.avioOpen }.emit (.avioOpened s.pHandle.ioTimeoutMs a.avioOpen)) :=
      Building.quiet ⟨h.building.follows, h.building.io⟩ rfl
    refine PartEnds.call (fun _ => hasked.abandoned) (fun _ => ?_)
    refine ⟨⟨?_, fun hno => absurd hno hfile⟩, h.count, h.indexed⟩
    rw [OpenState.emit, openCalls_append]
    refine hasked.follows.append (Follows.single ?_)
    exact if_pos ⟨rfl, h.pb⟩

theorem openHeader_writes
    (h : IoOpened pHandle s) :
    PartEnds pHandle.codecTypes (HeaderWritten pHandle) (openHeader a s) := by
  have hcalls : ∀ {phase}, (if a.writeHeader < 0 then AvPhase.ended else .writing) = phase →
      Follows none
        (openCalls pHandle.codecTypes
          ({ s with ret := a.writeHeader }.emit (.headerWritten a.writeHeader)).events)
        (some ⟨s.oc.id, pHandle.codecTypes, s.oc.pb, phase⟩) := by
    rintro phase rfl
    rw [OpenState.emit, openCalls_append]
    refine h.building.follows.append (Follows.single ?_)
    rw [h.count, List.take_length, avAllows, if_pos rfl]
  refine PartEnds.call (fun hret => ?_) (fun hret => ?_)
  · exact ⟨⟨_, hcalls (if_pos hret), rfl, rfl, by simp⟩, h.building.io⟩
  · exact ⟨hcalls (if_neg (Int.not_lt.mpr hret)), h.building.io, h.indexed⟩

theorem openParts_writes
    (h : NoStream pHandle s) :
    PartEnds pHandle.codecTypes (HeaderWritten pHandle) (openParts a s) :=
  (openAudio_adds h).bind fun _ h₁ =>
    (openVideo_adds h₁).bind fun _ h₂ =>
      (openIo_opens h₂).bind fun _ h₃ => openHeader_writes h₃

/-- `avio_close`, for a format with a file, and `avformat_free_context`. -/
theorem closeIo_frees
    {o : AvOutput} {oc : AVFormatContext} (hoc : o.oc = oc.id) (hpb : o.pb = oc.pb)
    (hphase : o.phase ≠ .writing) (hio : oc.oformat.noFile = true → oc.pb = none) :
    Follows (some o) (openCalls types (closeIo oc ++ [.contextFreed oc.id])) none := by
  have hfree : ∀ {o' : AvOutput}, o'.oc = oc.id → o'.pb = none → o'.phase ≠ .writing →
      Follows (some o') [.freeContext oc.id] none :=
    fun hoc' hpb' hphase' => Follows.single (if_pos ⟨hphase', hpb', hoc'⟩)
  rw [openCalls_append]
  cases hpb' : oc.pb with
  | none =>
      have hnone : closeIo oc = [] := by
        rw [closeIo, hpb']
        split <;> rfl
      rw [hnone]
      exact (Follows.nil _).append (hfree hoc (hpb.trans hpb') hphase)
  | some pb =>
      have hclose : closeIo oc = [.ioClosed pb] := by
        rw [closeIo, if_neg fun hno => ?_, hpb']
        · rfl
        · rw [hio hno] at hpb'
          cases hpb'
      have hclosed : avAllows (some o) (.closeIo pb) =
          some (some { o with pb := none, phase := .ended }) :=
        if_pos ⟨hphase, hpb.trans hpb'⟩
      rw [hclose]
      exact (Follows.single hclosed).append (hfree hoc rfl (by simp))

theorem openFail_frees
    (h : Abandoned types s) :
    Follows none (openCalls types (openFail s).events) none := by
  obtain ⟨⟨o, hfollows, hoc, hpb, hphase⟩, hio⟩ := h
  have hevents : openCalls types (openFail s).events =
      openCalls types s.events ++
        openCalls types (closeIo s.oc ++ [.contextFreed s.oc.id]) := by
    have hquiet : openCalls types
        ([.unlocked] ++ (sendEvent s.pHandle.muxer s.ret).map .sent) = [] := by
      rw [openCalls, List.filterMap_eq_nil_iff]
      intro e he
      rcases List.mem_append.mp he with he | he
      · rw [List.mem_singleton.mp he]
        rfl
      · obtain ⟨e', -, rfl⟩ := List.mem_map.mp he
        rfl
    have hsplit : (openFail s).events = s.events ++
        (closeIo s.oc ++ [.contextFreed s.oc.id]) ++
          ([.unlocked] ++ (sendEvent s.pHandle.muxer s.ret).map .sent) := by
      simp [openFail]
    rw [hsplit, openCalls_append, openCalls_append, hquiet, List.append_nil]
  rw [hevents]
  exact hfollows.append (closeIo_frees hoc hpb hphase hio)

/-- The output of an opened handle, while it is in the phase. -/
def AVFormatContext.output
    (oc : AVFormatContext) (types : List StreamType) (phase : AvPhase) : AvOutput :=
  ⟨oc.id, types, oc.pb, phase⟩

/-- `koala_muxer_init_open` ends with a context whose header is written, or with none. -/
theorem initOpen_follows
    (pHandle : MuxerHandle) (outName : CString) (a : InitOpenAnswers) (ret : Int) :
    (∃ oc, (koalaMuxerInitOpen pHandle (some outName) a ret).ret = 0 ∧
      (koalaMuxerInitOpen pHandle (some outName) a ret).pHandle.oc = some oc ∧
      (oc.oformat.noFile = true → oc.pb = none) ∧
      Indexed pHandle.muxer (koalaMuxerInitOpen pHandle (some outName) a ret).pHandle.muxer ∧
      Follows none
        (openCalls pHandle.muxer.codecTypes
          (koalaMuxerInitOpen pHandle (some outName) a ret).events)
        (some (oc.output pHandle.muxer.codecTypes .writing))) ∨
    ((koalaMuxerInitOpen pHandle (some outName) a ret).ret = -1 ∧
      (koalaMuxerInitOpen pHandle (some outName) a ret).pHandle.oc = none ∧
      Follows none
        (openCalls pHandle.muxer.codecTypes
          (koalaMuxerInitOpen pHandle (some outName) a ret).events) none) := by
  cases hoc : a.oc with
  | none =>
      right
      simp only [koalaMuxerInitOpen, hoc]
      exact ⟨trivial, trivial, Follows.nil none⟩
  | some context =>
      obtain ⟨id, oformat⟩ := context
      have hstart : NoStream pHandle.muxer
          ⟨pHandle, ⟨id, oformat, none, 0⟩, ret, [.locked, .contextAllocated id]⟩ :=
        ⟨⟨Follows.single rfl, fun _ => rfl⟩, rfl, rfl, rfl⟩
      have hparts := openParts_writes (a := a) hstart
      simp only [koalaMuxerInitOpen, hoc]
      cases hend : openParts a
          ⟨pHandle, ⟨id, oformat, none, 0⟩, ret, [.locked, .contextAllocated id]⟩ with
      | ok s =>
          rw [hend] at hparts
          left
          refine ⟨s.oc, rfl, rfl, hparts.io, hparts.indexed, ?_⟩
          show Follows none (openCalls _ (s.events ++ [.unlocked])) _
          rw [openCalls_append]
          exact hparts.follows.append (Follows.nil _)
      | error s =>
          rw [hend] at hparts
          right
          exact ⟨rfl, rfl, openFail_frees hparts⟩

end Open

/-! ## mux_thread -/

section Thread

variable {lib : LibAv} {pHandle muxer h h' : KoalaMuxer} {stream : StreamType} {call : ℕ}
  {answer : CallbackResult} {written : Int} {w : WriteFrameExit} {m m' : MuxState}
  {a : MuxAnswers} {es : List MuxEvent}

theorem streamIndex_of_setup
    (heq : h'.setup = h.setup) :
    h'.streamIndex = h.streamIndex := by
  obtain ⟨_, _, hvideo, haudio, _⟩ := setup_eq_iff.mp heq
  funext stream
  cases stream with
  | video =>
      exact hvideo
  | audio =>
      exact haudio

theorem Indexed.of_setup
    (hindexed : Indexed pHandle h) (heq : h'.setup = h.setup) :
    Indexed pHandle h' := by
  obtain ⟨hacb, hvcb, hvideo, haudio, _⟩ := setup_eq_iff.mp heq
  exact ⟨hacb.trans hindexed.acb, hvcb.trans hindexed.vcb,
    fun h => haudio.trans (hindexed.audio h), fun h => hvideo.trans (hindexed.video h)⟩

/-- The stream with the index of a callback has its type. -/
theorem Indexed.index
    (hindexed : Indexed pHandle h) (hhave : h.haveStream stream = true) :
    0 ≤ h.streamIndex stream ∧
    pHandle.codecTypes[(h.streamIndex stream).toNat]? = some stream := by
  cases stream with
  | audio =>
      have hacb : pHandle.acb = true := hindexed.acb ▸ hhave
      have hindex : h.streamIndex .audio = 0 := hindexed.audio hacb
      rw [hindex, KoalaMuxer.codecTypes, if_pos hacb]
      exact ⟨Int.le_refl _, rfl⟩
  | video =>
      have hvcb : pHandle.vcb = true := hindexed.vcb ▸ hhave
      have hindex : h.streamIndex .video = if pHandle.acb then 1 else 0 :=
        hindexed.video hvcb
      rw [hindex, KoalaMuxer.codecTypes, if_pos hvcb]
      cases pHandle.acb <;> exact ⟨by decide, rfl⟩

theorem submissionOf_streamIndex
    (lib : LibAv) (h : KoalaMuxer) (stream : StreamType) (frame : MediaFrame)
    (written : Int) :
    (submissionOf lib h stream frame written).pkt.streamIndex = h.streamIndex stream := by
  cases stream <;> rfl

theorem muxCalls_announce
    (h : KoalaMuxer) (ret : Int) :
    muxCalls (announce h ret) = [] := by
  rcases announce_eq h ret with hnone | hone
  · rw [hnone]
    rfl
  · rw [hone]
    rfl

/-- `write_frame` gives libavformat one packet at most, and of a stream that is there. -/
theorem WriteMove.calls
    (hw : WriteMove lib h stream call answer written w) :
    muxCalls w.events = [] ∨
    (h.haveStream stream = true ∧
      muxCalls w.events = [.writeFrame stream (h.streamIndex stream)]) := by
  cases hw with
  | noCallback hnone =>
      exact Or.inl rfl
  | sourceEnd hhave hret =>
      exact Or.inl rfl
  | dropped h' hhave hret hgate =>
      exact Or.inl rfl
  | wrote h' hhave hret hgate =>
      refine Or.inr ⟨hhave, ?_⟩
      have hindex := submissionOf_streamIndex lib h' stream answer.frame written
      rw [streamIndex_of_setup (setup_of_gate_pass hgate)] at hindex
      show AvCall.writeFrame stream _ :: muxCalls (announce h' written ++ [.released stream call])
        = _
      rw [muxCalls_append, muxCalls_announce, hindex]
      rfl

/-- A pass of the loop, and its end. -/
theorem muxStep_follows
    (oc : AVFormatContext) (hindexed : Indexed pHandle m.pHandle)
    (hstep : muxStep lib m a = some (m', es)) :
    m.finished = false ∧ Indexed pHandle m'.pHandle ∧
    Follows (some (oc.output pHandle.codecTypes .writing)) (muxCalls es)
      (some (oc.output pHandle.codecTypes (if m'.finished then .trailed else .writing))) := by
  have htrailer : Follows (some (oc.output pHandle.codecTypes .writing)) [.writeTrailer]
      (some (oc.output pHandle.codecTypes .trailed)) :=
    Follows.single rfl
  cases muxStep_move hstep with
  | loopEnd hrun hdone =>
      exact ⟨hrun, hindexed, htrailer⟩
  | pass stream w hrun hencode hw =>
      refine ⟨hrun, hindexed.of_setup hw.setup, ?_⟩
      have hwrites : Follows (some (oc.output pHandle.codecTypes .writing))
          (muxCalls w.events) (some (oc.output pHandle.codecTypes .writing)) := by
        rcases hw.calls with hnone | ⟨hhave, hone⟩
        · rw [hnone]
          exact Follows.nil _
        · rw [hone]
          obtain ⟨hpos, htype⟩ := hindexed.index hhave
          exact Follows.single (if_pos ⟨rfl, hpos, htype⟩)
      rw [muxCalls_append]
      refine hwrites.append ?_
      show Follows _ (muxCalls (passEnd a.ended))
        (some (oc.output _ (if a.ended then .trailed else .writing)))
      cases a.ended with
      | true =>
          exact htrailer
      | false =>
          exact Follows.nil _

end Thread

/-! ## A session -/

section Session

/-- What the caller has still to do. -/
inductive SessionPc
  /-- `KoalaMuxer_prepare`. -/
  | preparing
  /-- `mediaStreamer_start` of the prepare thread. -/
  | starting
  /-- The prepare thread has ended; `mediaStreamer_stop` comes next. -/
  | streaming
  /-- In `koala_muxer_end`, after `pHandle->end = 1`. -/
  | ending
  /-- `muxer_close`, by `mediaStreamer_stop` or by `mediaStreamer_release`. -/
  | closing
  | closed
deriving DecidableEq, Repr

/-- What `main` sets. -/
structure SessionConfig where
  /-- `element & ELEMENT_AUDIO`. -/
  haveAudio : Bool
  /-- `element & ELEMENT_VIDEO`. -/
  haveVideo : Bool
  listener : Bool
  outName : CString
  ioTimeoutMs : Int

structure SessionState where
  muxer : MuxerState
  caller : SessionPc

inductive SessionAction
  | prepare (a : InitOpenAnswers) (ret : Int)
  | start (created : ℕ)
  | setEnd
  | join
  | close
  /-- A pass of `mux_thread`. -/
  | pass (callback : StreamType → CallbackResult) (written : Int)

/-- `KoalaMuxer_open`, the listener and the options. -/
def SessionState.opened (cfg : SessionConfig) : SessionState where
  muxer :=
    { MuxerState.fresh with
      pHandle := { koalaGetHandle.setListener cfg.listener with
        ioTimeoutMs := cfg.ioTimeoutMs } }
  caller := .preparing

/-- `KoalaMuxer_prepare`: what `koala_muxer_init_open` does with the callbacks registered. -/
def koalaMuxerPrepare
    (cfg : SessionConfig) (pHandle : MuxerHandle) (a : InitOpenAnswers) (ret : Int) :
    OpenExit :=
  koalaMuxerInitOpen (pHandle.regDataCallback cfg.haveAudio cfg.haveVideo)
    (some cfg.outName) a ret

/-- `koala_muxer_close`, up to the end of the handle. -/
def koalaMuxerClose (pHandle : MuxerHandle) : MuxerHandle × List OpenEvent :=
  ({ pHandle with oc := none },
    match pHandle.oc with
    | none => [.locked, .unlocked]
    | some oc => .locked :: (closeIo oc ++ [.contextFreed oc.id]) ++ [.unlocked])

/-- The caller and the mux thread in a session. -/
def sessionStep (lib : LibAv) (cfg : SessionConfig) :
    Machine SessionState SessionAction MuxerEvent
  | s, .prepare a ret =>
      if s.caller = .preparing then
        let x := koalaMuxerPrepare cfg s.muxer.pHandle a ret
        some (⟨{ s.muxer with pHandle := x.pHandle },
          if x.ret < 0 then .closing else .starting⟩, x.events.map .init)
      else none
  | s, .start created =>
      -- `pthread_create` succeeds
      if s.caller = .starting ∧ created ≠ 0 then
        (muxerStep lib s.muxer (.call (.start created))).map fun x => (⟨x.1, .streaming⟩, x.2)
      else none
  | s, .setEnd =>
      if s.caller = .streaming then
        (muxerStep lib s.muxer (.call .setEnd)).map fun x => (⟨x.1, .ending⟩, x.2)
      else none
  | s, .join =>
      if s.caller = .ending then
        (muxerStep lib s.muxer .join).map fun x => (⟨x.1, .closing⟩, x.2)
      else none
  | s, .close =>
      if s.caller = .closing then
        let x := koalaMuxerClose s.muxer.pHandle
        some (⟨{ s.muxer with pHandle := x.1 }, .closed⟩, x.2.map .init)
      else none
  | s, .pass callback written =>
      (muxerStep lib s.muxer (.pass callback written)).map fun x => (⟨x.1, s.caller⟩, x.2)

/-- A step of a session in a run. -/
abbrev SessionTransition := Transition SessionState SessionAction MuxerEvent

/-- The callbacks that `KoalaMuxer_prepare` registers. -/
def SessionConfig.registered (cfg : SessionConfig) : KoalaMuxer :=
  koalaMuxerRegDataCallback koalaGetMuxerHandle cfg.haveAudio cfg.haveVideo

/-- The calls of libavformat in a run. -/
def avCalls (cfg : SessionConfig) (es : List MuxerEvent) : List AvCall :=
  es.filterMap (MuxerEvent.avCall cfg.registered.codecTypes)

/-- An output that is open, and its handle. -/
structure OutputOpen
    (cfg : SessionConfig) (s : SessionState) (oc : AVFormatContext) : Prop where
  context : s.muxer.pHandle.oc = some oc
  io : oc.oformat.noFile = true → oc.pb = none
  indexed : Indexed cfg.registered s.muxer.pHandle.muxer

/-- There is no output. -/
structure OutputNone (s : SessionState) (o : Option AvOutput) : Prop where
  context : s.muxer.pHandle.oc = none
  thread : s.muxer.thread = none
  protocol : o = none

/-- Where libavformat is, beside the caller and the thread. -/
inductive SessionBeside (cfg : SessionConfig) (s : SessionState) : Option AvOutput → Prop
  | preparing {o : Option AvOutput} (hpc : s.caller = .preparing)
      (hnone : OutputNone s o) (hfree : s.muxer.ending = false)
      (hid : s.muxer.pHandle.muxId = 0) : SessionBeside cfg s o
  | starting (oc : AVFormatContext) (hpc : s.caller = .starting)
      (hopen : OutputOpen cfg s oc) (hthread : s.muxer.thread = none)
      (hfree : s.muxer.ending = false) (hid : s.muxer.pHandle.muxId = 0) :
      SessionBeside cfg s (some (oc.output cfg.registered.codecTypes .writing))
  | working (oc : AVFormatContext) (t : MuxThread)
      (hpc : s.caller = .streaming ∨ s.caller = .ending)
      (hopen : OutputOpen cfg s oc) (hthread : s.muxer.thread = some t) :
      SessionBeside cfg s
        (some (oc.output cfg.registered.codecTypes (if t.finished then .trailed else .writing)))
  | closing (oc : AVFormatContext) (hpc : s.caller = .closing)
      (hopen : OutputOpen cfg s oc) (hthread : s.muxer.thread = none) :
      SessionBeside cfg s (some (oc.output cfg.registered.codecTypes .trailed))
  | unopened {o : Option AvOutput} (hpc : s.caller = .closing ∨ s.caller = .closed)
      (hnone : OutputNone s o) : SessionBeside cfg s o

variable {lib : LibAv} {cfg : SessionConfig} {s s' : SessionState} {a : SessionAction}
  {es : List MuxerEvent} {o : Option AvOutput} {tr : List SessionTransition}

theorem avCalls_init
    (cfg : SessionConfig) (es : List OpenEvent) :
    avCalls cfg (es.map .init) = openCalls cfg.registered.codecTypes es := by
  rw [avCalls, openCalls, List.filterMap_map]
  rfl

theorem avCalls_mux
    (cfg : SessionConfig) (es : List MuxEvent) :
    avCalls cfg (es.map .mux) = muxCalls es := by
  rw [avCalls, muxCalls, List.filterMap_map]
  rfl

theorem pass_follows
    {callback : StreamType → CallbackResult} {written : Int} {x : MuxerState × List MuxerEvent}
    (h : SessionBeside cfg s o)
    (hpass : muxerStep lib s.muxer (.pass callback written) = some x) :
    ∃ o', SessionBeside cfg ⟨x.1, s.caller⟩ o' ∧ Follows o (avCalls cfg x.2) o' := by
  obtain ⟨t, next, es', hthread, hoc, hmux, hx, hes⟩ := muxerPass_inv hpass
  cases h with
  | working oc t' hpc hopen hthread' =>
      obtain rfl := Option.some.inj (hthread.symm.trans hthread')
      obtain ⟨hrun, hindexed, hfollows⟩ := muxStep_follows oc hopen.indexed hmux
      have hrun' : t.finished = false := hrun
      rw [hes, avCalls_mux, hrun']
      refine ⟨_, .working oc next.thread hpc ⟨?_, hopen.io, ?_⟩ ?_, hfollows⟩
      · rw [hx]
        exact hopen.context
      · rw [hx]
        exact hindexed
      · rw [hx]
  | preparing hpc hnone =>
      rw [hnone.thread] at hthread
      cases hthread
  | unopened hpc hnone =>
      rw [hnone.thread] at hthread
      cases hthread
  | starting oc hpc hopen hthread' =>
      rw [hthread'] at hthread
      cases hthread
  | closing oc hpc hopen hthread' =>
      rw [hthread'] at hthread
      cases hthread

theorem prepare_follows
    {a : InitOpenAnswers} {ret : Int}
    (hthread : s.muxer.thread = none) (hfree : s.muxer.ending = false)
    (hid : s.muxer.pHandle.muxId = 0) :
    ∃ o', SessionBeside cfg
      ⟨{ s.muxer with pHandle := (koalaMuxerPrepare cfg s.muxer.pHandle a ret).pHandle },
        if (koalaMuxerPrepare cfg s.muxer.pHandle a ret).ret < 0 then .closing else .starting⟩
      o' ∧
      Follows none
        (avCalls cfg ((koalaMuxerPrepare cfg s.muxer.pHandle a ret).events.map .init)) o' := by
  have hkeeps := initOpen_keeps (s.muxer.pHandle.regDataCallback cfg.haveAudio cfg.haveVideo)
    (some cfg.outName) a ret
  rw [avCalls_init]
  rcases initOpen_follows (s.muxer.pHandle.regDataCallback cfg.haveAudio cfg.haveVideo)
    cfg.outName a ret with ⟨oc, hret, hoc, hio, hindexed, hfollows⟩ | ⟨hret, hoc, hfollows⟩
  · refine ⟨_, .starting oc ?_ ⟨hoc, hio, ?_⟩ hthread hfree ?_, hfollows⟩
    · show (if (koalaMuxerPrepare cfg s.muxer.pHandle a ret).ret < 0 then SessionPc.closing
        else .starting) = .starting
      rw [koalaMuxerPrepare, hret]
      rfl
    · exact ⟨hindexed.acb, hindexed.vcb, hindexed.audio, hindexed.video⟩
    · exact (congrArg MuxingState.muxId hkeeps.muxing).trans hid
  · refine ⟨none, .unopened (.inl ?_) ⟨hoc, hthread, rfl⟩, hfollows⟩
    show (if (koalaMuxerPrepare cfg s.muxer.pHandle a ret).ret < 0 then SessionPc.closing
      else .starting) = .closing
    rw [koalaMuxerPrepare, hret]
    rfl

theorem sessionStep_follows
    (h : SessionBeside cfg s o) (hstep : sessionStep lib cfg s a = some (s', es)) :
    ∃ o', SessionBeside cfg s' o' ∧ Follows o (avCalls cfg es) o' := by
  cases a with
  | prepare a ret =>
      simp only [sessionStep, Option.ite_none_right_eq_some, Option.some.injEq,
        Prod.mk.injEq] at hstep
      obtain ⟨hpc, rfl, rfl⟩ := hstep
      cases h with
      | preparing hpc' hnone hfree hid =>
          obtain rfl := hnone.protocol
          exact prepare_follows hnone.thread hfree hid
      | _ =>
          simp_all
  | start created =>
      simp only [sessionStep, Option.ite_none_right_eq_some, Option.map_eq_some_iff,
        Prod.mk.injEq] at hstep
      obtain ⟨⟨hpc, hcreated⟩, x, hcall, rfl, rfl⟩ := hstep
      cases h with
      | starting oc hpc' hopen hthread hfree hid =>
          simp only [muxerStep, hfree, Bool.false_eq_true, if_false, Option.some.injEq,
            muxerCall, koalaMuxerStart, hid, hcreated, ne_eq, not_false_eq_true, and_self,
            if_true] at hcall
          subst hcall
          exact ⟨_, .working oc _ (.inl rfl) ⟨hopen.context, hopen.io, hopen.indexed⟩ rfl,
            Follows.nil _⟩
      | _ =>
          simp_all
  | setEnd =>
      simp only [sessionStep, muxerStep, Option.ite_none_right_eq_some,
        Option.ite_none_left_eq_some, Option.map_eq_some_iff, Option.some.injEq,
        Prod.mk.injEq] at hstep
      obtain ⟨hpc, x, ⟨-, rfl⟩, rfl, rfl⟩ := hstep
      cases h with
      | working oc t hpc' hopen hthread =>
          exact ⟨_, .working oc t (.inr rfl) ⟨hopen.context, hopen.io, hopen.indexed⟩ hthread,
            Follows.nil _⟩
      | _ =>
          simp_all
  | join =>
      simp only [sessionStep, muxerStep, Option.ite_none_right_eq_some,
        Option.map_eq_some_iff, Option.some.injEq, Prod.mk.injEq] at hstep
      obtain ⟨hpc, x, ⟨⟨-, hfinished⟩, rfl⟩, rfl, rfl⟩ := hstep
      cases h with
      | working oc t hpc' hopen hthread =>
          have ht : t.finished = true := by
            rw [hthread] at hfinished
            exact hfinished
          rw [ht]
          exact ⟨_, .closing oc rfl ⟨hopen.context, hopen.io,
            hopen.indexed.of_setup rfl⟩ rfl, Follows.nil _⟩
      | _ =>
          simp_all
  | close =>
      simp only [sessionStep, Option.ite_none_right_eq_some, Option.some.injEq,
        Prod.mk.injEq] at hstep
      obtain ⟨hpc, rfl, rfl⟩ := hstep
      rw [avCalls_init]
      cases h with
      | closing oc hpc' hopen hthread =>
          refine ⟨none, .unopened (.inr rfl) ⟨rfl, hthread, rfl⟩, ?_⟩
          have hfrees : Follows (some (oc.output cfg.registered.codecTypes .trailed))
              (openCalls cfg.registered.codecTypes (closeIo oc ++ [.contextFreed oc.id]))
              none :=
            closeIo_frees rfl rfl (show AvPhase.trailed ≠ .writing by simp) hopen.io
          rw [koalaMuxerClose, hopen.context]
          show Follows _ (openCalls _ (closeIo oc ++ [.contextFreed oc.id] ++ [.unlocked])) none
          rw [openCalls_append]
          exact hfrees.append (Follows.nil none)
      | unopened hpc' hnone =>
          refine ⟨none, .unopened (.inr rfl) ⟨rfl, hnone.thread, rfl⟩, ?_⟩
          rw [koalaMuxerClose, hnone.context, hnone.protocol]
          exact Follows.nil none
      | _ =>
          simp_all
  | pass callback written =>
      obtain ⟨x, hpass, heq⟩ := Option.map_eq_some_iff.mp hstep
      obtain ⟨rfl, rfl⟩ := Prod.mk.inj heq
      exact pass_follows h hpass

theorem run_sessionBeside
    (run : Run (sessionStep lib cfg) (SessionState.opened cfg) tr s) :
    ∃ o, SessionBeside cfg s o ∧ Follows none (avCalls cfg (eventsOf tr)) o := by
  induction run with
  | nil =>
      exact ⟨none, .preparing rfl ⟨rfl, rfl, rfl⟩ rfl rfl, Follows.nil none⟩
  | snoc run hstep ih =>
      obtain ⟨o, hbeside, hfollows⟩ := ih
      obtain ⟨o', hbeside', hfollows'⟩ := sessionStep_follows hbeside hstep
      refine ⟨o', hbeside', ?_⟩
      rw [eventsOf_snoc, avCalls, List.filterMap_append]
      exact hfollows.append hfollows'

end Session

/--
In every run of a session, whatever the callbacks, the network and libavformat answer and
wherever the mux thread is when the caller goes on, the calls of libavformat follow its
protocol: a packet is only given to a context whose header is written and whose trailer is
not, and carries the index of a stream of its type; nothing is closed or freed twice, or
while packets may come.  When the handle is closed, nothing is open any more.  That
`pthread_create` succeeds is assumed.
-/
theorem session_keeps_protocol
    {lib : LibAv} {cfg : SessionConfig} {tr : List SessionTransition} {s : SessionState}
    (run : Run (sessionStep lib cfg) (SessionState.opened cfg) tr s) :
    ∃ o, Follows none (avCalls cfg (eventsOf tr)) o ∧
      (s.caller = .closed →
        o = none ∧ s.muxer.pHandle.oc = none ∧ s.muxer.thread = none) := by
  obtain ⟨o, hbeside, hfollows⟩ := run_sessionBeside run
  refine ⟨o, hfollows, fun hclosed => ?_⟩
  cases hbeside with
  | unopened hpc hnone =>
      exact ⟨hnone.protocol, hnone.context, hnone.thread⟩
  | _ =>
      simp_all

/-- Audio and video, of which one video packet is written before the end. -/
theorem session_keeps_protocol_both :
    ∃ tr s, Run (sessionStep exactLibAv ⟨true, true, true, [], 0⟩)
      (SessionState.opened ⟨true, true, true, [], 0⟩) tr s ∧ s.caller = .closed ∧
      avCalls ⟨true, true, true, [], 0⟩ (eventsOf tr) =
        [.allocContext 3, .newStream .audio 0, .newStream .video 1, .openIo 8,
          .writeHeader 0, .writeFrame .video 1, .writeTrailer, .closeIo 8, .freeContext 3] ∧
      ∃ o, Follows none (avCalls ⟨true, true, true, [], 0⟩ (eventsOf tr)) o := by
  obtain ⟨tr, s, run, hclosed, hcalls⟩ :=
    Run.exists_of_exec (sessionStep exactLibAv ⟨true, true, true, [], 0⟩)
      (SessionState.opened ⟨true, true, true, [], 0⟩)
      [.prepare ⟨some (3, ⟨"flv", false⟩), ⟨0, 44100⟩, ⟨0, 0⟩, 0, 8, 0⟩ 0, .start 1,
        .setEnd, .pass (fun _ => ⟨0, mediaFrameCreate⟩) 0, .join, .close]
      (fun r => r.2.caller = .closed ∧
        avCalls ⟨true, true, true, [], 0⟩ (eventsOf r.1) =
          [.allocContext 3, .newStream .audio 0, .newStream .video 1, .openIo 8,
            .writeHeader 0, .writeFrame .video 1, .writeTrailer, .closeIo 8, .freeContext 3])
      (by decide +kernel)
  obtain ⟨o, hfollows, -⟩ := session_keeps_protocol run
  exact ⟨tr, s, run, hclosed, hcalls, o, hfollows⟩

end KoalaStreamer
