import KoalaStreamer.KoalaMuxer
import KoalaStreamer.Library.CStrings

/-!
# koala_muxer.c: koala_muxer_init_open

The parts of the function share the label `fail`, which cleans up after all of them
and reports `ret`.  The metadata callbacks store their results in a `ret` of the
block they are called in.

Main result: `open_clean_iff`: a failed open is clean and reports the code of the call
that failed if and only if that was no metadata callback, up to what an uninitialised
variable holds and to an old context when there is no name.
-/

namespace KoalaStreamer

open CStrings

/-- `AVOutputFormat`. -/
structure AVOutputFormat where
  name : String
  /-- `AVFMT_NOFILE` is one of the flags. -/
  noFile : Bool
deriving DecidableEq, Repr

/-- `AVFormatContext`. -/
structure AVFormatContext where
  id : ℕ
  oformat : AVOutputFormat
  /-- The I/O handle; `none` is NULL. -/
  pb : Option ℕ
  nbStreams : ℕ
deriving DecidableEq, Repr

/-- `koala_muxer` with its output and its thread. -/
structure MuxerHandle where
  muxer : KoalaMuxer
  oc : Option AVFormatContext
  /-- `mux_id`; 0 if there is no thread. -/
  muxId : ℕ
  /-- The field `end`. -/
  ended : Int
  ioTimeoutMs : Int
deriving DecidableEq, Repr

/-- `koala_get_muxer_handle`. -/
def koalaGetHandle : MuxerHandle where
  muxer := koalaGetMuxerHandle
  oc := none
  muxId := 0
  ended := 0
  ioTimeoutMs := 0

/-- What a metadata callback gives.  Of the metadata, the function itself uses the
sample rate. -/
structure MetaResult where
  ret : Int
  samplerate : Int
deriving DecidableEq, Repr

/-- What the callbacks and FFmpeg answer. -/
structure InitOpenAnswers where
  /-- `avformat_alloc_output_context2`; `none` is NULL. -/
  oc : Option (ℕ × AVOutputFormat)
  audioMeta : MetaResult
  videoMeta : MetaResult
  /-- `avio_open2`, which leaves NULL in `pb` if it fails. -/
  avioOpen : Int
  pb : ℕ
  /-- `avformat_write_header`. -/
  writeHeader : Int
deriving DecidableEq, Repr

inductive OpenEvent
  /-- `apiMutex`. -/
  | locked
  | unlocked
  | contextAllocated (oc : ℕ)
  | contextFreed (oc : ℕ)
  | streamAdded (index : ℕ)
  /-- A metadata callback has returned. -/
  | metaAsked (stream : StreamType) (ret : Int)
  | avioOpened (ioTimeoutMs ret : Int)
  | headerWritten (ret : Int)
  /-- There is an I/O handle. -/
  | ioOpened (pb : ℕ)
  | ioClosed (pb : ℕ)
  /-- `sendEvent`. -/
  | sent (event : MuxEvent)
deriving DecidableEq, Repr

section InitOpen

/-- Inside `koala_muxer_init_open`. -/
structure OpenState where
  pHandle : MuxerHandle
  /-- `pHandle->oc`, which is not NULL. -/
  oc : AVFormatContext
  /-- `ret` of the function. -/
  ret : Int
  events : List OpenEvent

def OpenState.emit (s : OpenState) (e : OpenEvent) : OpenState :=
  { s with events := s.events ++ [e] }

/-- `avformat_new_stream`. -/
def OpenState.newStream (s : OpenState) : OpenState :=
  { s with oc := { s.oc with nbStreams := s.oc.nbStreams + 1 } }.emit
    (.streamAdded s.oc.nbStreams)

def OpenState.setMuxer (s : OpenState) (muxer : KoalaMuxer) : OpenState :=
  { s with pHandle := { s.pHandle with muxer := muxer } }

/-- A part of the function; an error is `goto fail`. -/
abbrev OpenPart := OpenState → Except OpenState OpenState

/-- The audio stream; `ret` of the block is another variable. -/
def openAudio (a : InitOpenAnswers) : OpenPart := fun s =>
  if s.pHandle.muxer.acb then
    let asked := s.emit (.metaAsked .audio a.audioMeta.ret)
    if a.audioMeta.ret < 0 then .error asked
    else
      .ok (asked.newStream.setMuxer
        (initOpenAudio s.pHandle.muxer s.oc.oformat.name s.oc.nbStreams
          a.audioMeta.samplerate))
  else .ok s

/-- The video stream, which is there before its metadata. -/
def openVideo (a : InitOpenAnswers) : OpenPart := fun s =>
  if s.pHandle.muxer.vcb then
    let asked := s.newStream.emit (.metaAsked .video a.videoMeta.ret)
    if a.videoMeta.ret < 0 then .error asked
    else
      .ok (asked.setMuxer
        (initOpenVideo s.pHandle.muxer s.oc.oformat.name s.oc.nbStreams))
  else .ok s

/-- `avio_open2`, for a format with a file. -/
def openIo (a : InitOpenAnswers) : OpenPart := fun s =>
  if s.oc.oformat.noFile then .ok s
  else
    let called := { s with ret := a.avioOpen }.emit
      (.avioOpened s.pHandle.ioTimeoutMs a.avioOpen)
    if a.avioOpen < 0 then .error called
    else .ok ({ called with oc := { s.oc with pb := some a.pb } }.emit (.ioOpened a.pb))

/-- `avformat_write_header`. -/
def openHeader (a : InitOpenAnswers) : OpenPart := fun s =>
  let called := { s with ret := a.writeHeader }.emit (.headerWritten a.writeHeader)
  if a.writeHeader < 0 then .error called
  else .ok called

/-- From the context to the label `fail`. -/
def openParts (a : InitOpenAnswers) : OpenPart := fun s =>
  (openAudio a s).bind fun s =>
    (openVideo a s).bind fun s =>
      (openIo a s).bind (openHeader a)

/-- How `koala_muxer_init_open` ends. -/
structure OpenExit where
  ret : Int
  pHandle : MuxerHandle
  events : List OpenEvent
deriving DecidableEq, Repr

/-- The last lines before the label. -/
def openDone (s : OpenState) : OpenExit where
  ret := 0
  pHandle := { s.pHandle with oc := some s.oc }
  events := s.events ++ [.unlocked]

/-- `avio_close(pHandle->oc->pb)`, which does nothing for NULL. -/
def closeIo (oc : AVFormatContext) : List OpenEvent :=
  if oc.oformat.noFile then []
  else oc.pb.toList.map .ioClosed

/-- The label `fail`. -/
def openFail (s : OpenState) : OpenExit where
  ret := -1
  pHandle := { s.pHandle with oc := none }
  events :=
    s.events ++ closeIo s.oc ++ [.contextFreed s.oc.id, .unlocked] ++
      (sendEvent s.pHandle.muxer s.ret).map .sent

/-- `koala_muxer_init_open`; `ret` is what the variable holds at first. -/
def koalaMuxerInitOpen
    (pHandle : MuxerHandle) (outName : Option CString) (a : InitOpenAnswers) (ret : Int) :
    OpenExit :=
  match outName, a.oc with
  | none, _ =>
      { ret := -1
        pHandle := pHandle
        events := [.locked] ++ (sendEvent pHandle.muxer ret).map .sent ++ [.unlocked] }
  | some _, none =>
      { ret := -1
        pHandle := { pHandle with oc := none }
        events := [.locked, .unlocked] }
  | some _, some (id, oformat) =>
      let oc : AVFormatContext := ⟨id, oformat, none, 0⟩
      match openParts a ⟨pHandle, oc, ret, [.locked, .contextAllocated id]⟩ with
      | .ok s => openDone s
      | .error s => openFail s

end InitOpen

/-! ## A failed open -/

section Law

/-- The code of a call that has failed. -/
def OpenEvent.failure : OpenEvent → Option Int
  | .metaAsked _ ret => if ret < 0 then some ret else none
  | .avioOpened _ ret => if ret < 0 then some ret else none
  | .headerWritten ret => if ret < 0 then some ret else none
  | _ => none

/-- What the listener is told. -/
def OpenEvent.report : OpenEvent → Option Int
  | .sent (.notified event) => some event
  | _ => none

/-- A failed open is clean and reported. -/
structure CleanOpen (pHandle : MuxerHandle) (x : OpenExit) : Prop where
  unlockedOnce : x.events.count .unlocked = 1
  ocNull : x.ret = -1 → x.pHandle.oc = none
  closedOnce : x.ret = -1 → ∀ pb, .ioOpened pb ∈ x.events →
    x.events.count (.ioClosed pb) = 1
  freedOnce : x.ret = -1 → ∀ oc, .contextAllocated oc ∈ x.events →
    x.events.count (.contextFreed oc) = 1
  reported : x.ret = -1 → ∀ oc, .contextAllocated oc ∈ x.events →
    pHandle.muxer.listener = true →
    ∃ code < 0, x.events.filterMap OpenEvent.failure = [code] ∧
      x.events.filterMap OpenEvent.report = [code]

/-- The audio metadata is not there. -/
def AudioFails (pHandle : KoalaMuxer) (a : InitOpenAnswers) : Prop :=
  pHandle.acb = true ∧ a.audioMeta.ret < 0

/-- The video metadata is not there. -/
def VideoFails (pHandle : KoalaMuxer) (a : InitOpenAnswers) : Prop :=
  pHandle.vcb = true ∧ a.videoMeta.ret < 0

instance (pHandle : KoalaMuxer) (a : InitOpenAnswers) : Decidable (AudioFails pHandle a) :=
  inferInstanceAs (Decidable (_ ∧ _))

instance (pHandle : KoalaMuxer) (a : InitOpenAnswers) : Decidable (VideoFails pHandle a) :=
  inferInstanceAs (Decidable (_ ∧ _))

/-- The result of the metadata callback that fails. -/
def metaFailure (pHandle : KoalaMuxer) (a : InitOpenAnswers) : Option Int :=
  if AudioFails pHandle a then some a.audioMeta.ret
  else if VideoFails pHandle a then some a.videoMeta.ret
  else none

/-- What only the end of the function does. -/
def OpenEvent.ending : OpenEvent → Bool
  | .unlocked => true
  | .contextFreed _ => true
  | .ioClosed _ => true
  | .sent _ => true
  | _ => false

/-- Inside the function, with the codes of the calls that have failed. -/
structure OpenInv (pHandle : KoalaMuxer) (id : ℕ) (s : OpenState) (codes : List Int) :
    Prop where
  acb : s.pHandle.muxer.acb = pHandle.acb
  vcb : s.pHandle.muxer.vcb = pHandle.vcb
  listener : s.pHandle.muxer.listener = pHandle.listener
  context : s.oc.id = id
  allocated : ∀ oc, .contextAllocated oc ∈ s.events ↔ oc = id
  opened : ∀ pb, .ioOpened pb ∈ s.events → s.oc.oformat.noFile = false ∧ s.oc.pb = some pb
  working : ∀ e ∈ s.events, e.ending = false
  failures : s.events.filterMap OpenEvent.failure = codes

/-- The calls that the function makes before the label. -/
inductive OpenEvent.Working : OpenEvent → Prop
  | streamAdded (index : ℕ) : Working (.streamAdded index)
  | metaAsked (stream : StreamType) (ret : Int) : Working (.metaAsked stream ret)
  | avioOpened (ioTimeoutMs ret : Int) : Working (.avioOpened ioTimeoutMs ret)
  | headerWritten (ret : Int) : Working (.headerWritten ret)

end Law

section Parts

variable {pHandle muxer : KoalaMuxer} {a : InitOpenAnswers} {id : ℕ}
variable {s s' : OpenState} {codes : List Int} {e : OpenEvent}

theorem OpenInv.emit
    (inv : OpenInv pHandle id s codes) (he : e.Working) :
    OpenInv pHandle id (s.emit e) (codes ++ e.failure.toList) where
  acb := inv.acb
  vcb := inv.vcb
  listener := inv.listener
  context := inv.context
  allocated := fun oc => by
    rw [OpenState.emit, List.mem_append, inv.allocated oc]
    cases he <;> simp
  opened := fun pb hmem => by
    rcases List.mem_append.mp hmem with hmem | hmem
    · exact inv.opened pb hmem
    · cases he <;> simp at hmem
  working := fun e' hmem => by
    rcases List.mem_append.mp hmem with hmem | hmem
    · exact inv.working e' hmem
    · rw [List.mem_singleton.mp hmem]
      cases he <;> rfl
  failures := by
    rw [OpenState.emit, List.filterMap_append, inv.failures]
    cases hfailure : e.failure <;> simp [hfailure]

theorem OpenInv.newStream
    (inv : OpenInv pHandle id s codes) :
    OpenInv pHandle id s.newStream codes := by
  have hstream : OpenInv pHandle id
      { s with oc := { s.oc with nbStreams := s.oc.nbStreams + 1 } } codes :=
    ⟨inv.acb, inv.vcb, inv.listener, inv.context, inv.allocated, inv.opened, inv.working,
      inv.failures⟩
  have hnone : (OpenEvent.streamAdded s.oc.nbStreams).failure = none := rfl
  have hemit := hstream.emit (.streamAdded s.oc.nbStreams)
  rwa [hnone, Option.toList_none, List.append_nil] at hemit

theorem OpenInv.setMuxer
    (inv : OpenInv pHandle id s codes)
    (hacb : muxer.acb = s.pHandle.muxer.acb) (hvcb : muxer.vcb = s.pHandle.muxer.vcb)
    (hlistener : muxer.listener = s.pHandle.muxer.listener) :
    OpenInv pHandle id (s.setMuxer muxer) codes :=
  ⟨hacb.trans inv.acb, hvcb.trans inv.vcb, hlistener.trans inv.listener, inv.context,
    inv.allocated, inv.opened, inv.working, inv.failures⟩

theorem OpenInv.setRet
    (inv : OpenInv pHandle id s codes) (ret : Int) :
    OpenInv pHandle id { s with ret := ret } codes :=
  ⟨inv.acb, inv.vcb, inv.listener, inv.context, inv.allocated, inv.opened, inv.working,
    inv.failures⟩

/-- A call that fails, and one that does not. -/
theorem OpenInv.call
    (inv : OpenInv pHandle id s []) (he : e.Working) {ret : Int}
    (hfailure : e.failure = if ret < 0 then some ret else none) :
    (ret < 0 → OpenInv pHandle id (s.emit e) [ret]) ∧
    (0 ≤ ret → OpenInv pHandle id (s.emit e) []) := by
  have hemit := inv.emit he
  rw [hfailure, List.nil_append] at hemit
  constructor
  · intro hret
    rwa [if_pos hret] at hemit
  · intro hret
    rwa [if_neg (Int.not_lt.mpr hret)] at hemit

@[simp] theorem initOpenAudio_callbacks
    (m : KoalaMuxer) (fmtName : String) (index samplerate : Int) :
    (initOpenAudio m fmtName index samplerate).acb = m.acb ∧
    (initOpenAudio m fmtName index samplerate).vcb = m.vcb ∧
    (initOpenAudio m fmtName index samplerate).listener = m.listener := by
  rw [initOpenAudio]
  split <;> exact ⟨rfl, rfl, rfl⟩

@[simp] theorem initOpenVideo_callbacks
    (m : KoalaMuxer) (fmtName : String) (index : Int) :
    (initOpenVideo m fmtName index).acb = m.acb ∧
    (initOpenVideo m fmtName index).vcb = m.vcb ∧
    (initOpenVideo m fmtName index).listener = m.listener := by
  rw [initOpenVideo]
  split <;> exact ⟨rfl, rfl, rfl⟩

/-- A call whose result is tested did not fail. -/
theorem call_ok
    {ret : Int} {failed called : OpenState}
    (hok : (if ret < 0 then Except.error failed else .ok called) = .ok s') :
    0 ≤ ret ∧ s' = called := by
  split at hok
  · cases hok
  · rename_i hret
    exact ⟨Int.not_lt.mp hret, (Except.ok.inj hok).symm⟩

theorem call_error
    {ret : Int} {failed called : OpenState}
    (herror : (if ret < 0 then Except.error failed else .ok called) = .error s') :
    ret < 0 ∧ s' = failed := by
  split at herror
  · rename_i hret
    exact ⟨hret, (Except.error.inj herror).symm⟩
  · cases herror

theorem openAudio_ok
    (inv : OpenInv pHandle id s []) (hok : openAudio a s = .ok s') :
    OpenInv pHandle id s' [] ∧ s'.ret = s.ret ∧ s'.oc.pb = s.oc.pb ∧
      ¬AudioFails pHandle a := by
  rw [openAudio] at hok
  split at hok
  · obtain ⟨hret, rfl⟩ := call_ok hok
    have hcall := (inv.call (.metaAsked .audio a.audioMeta.ret) rfl).2 hret
    have hkept := initOpenAudio_callbacks s.pHandle.muxer s.oc.oformat.name s.oc.nbStreams
      a.audioMeta.samplerate
    exact ⟨hcall.newStream.setMuxer hkept.1 hkept.2.1 hkept.2.2, rfl, rfl,
      fun hfails => Int.not_lt.mpr hret hfails.2⟩
  · rename_i hacb
    obtain rfl := Except.ok.inj hok
    exact ⟨inv, rfl, rfl, fun hfails => hacb (inv.acb.trans hfails.1)⟩

theorem openAudio_error
    (inv : OpenInv pHandle id s []) (herror : openAudio a s = .error s') :
    OpenInv pHandle id s' [a.audioMeta.ret] ∧ s'.ret = s.ret ∧ AudioFails pHandle a := by
  rw [openAudio] at herror
  split at herror
  · rename_i hacb
    obtain ⟨hret, rfl⟩ := call_error herror
    have hcall := (inv.call (.metaAsked .audio a.audioMeta.ret) rfl).1 hret
    exact ⟨hcall, rfl, inv.acb.symm.trans hacb, hret⟩
  · cases herror

theorem openVideo_ok
    (inv : OpenInv pHandle id s []) (hok : openVideo a s = .ok s') :
    OpenInv pHandle id s' [] ∧ s'.ret = s.ret ∧ s'.oc.pb = s.oc.pb ∧
      ¬VideoFails pHandle a := by
  rw [openVideo] at hok
  split at hok
  · obtain ⟨hret, rfl⟩ := call_ok hok
    have hcall := (inv.newStream.call (.metaAsked .video a.videoMeta.ret) rfl).2 hret
    have hkept := initOpenVideo_callbacks s.pHandle.muxer s.oc.oformat.name s.oc.nbStreams
    exact ⟨hcall.setMuxer hkept.1 hkept.2.1 hkept.2.2, rfl, rfl,
      fun hfails => Int.not_lt.mpr hret hfails.2⟩
  · rename_i hvcb
    obtain rfl := Except.ok.inj hok
    exact ⟨inv, rfl, rfl, fun hfails => hvcb (inv.vcb.trans hfails.1)⟩

theorem openVideo_error
    (inv : OpenInv pHandle id s []) (herror : openVideo a s = .error s') :
    OpenInv pHandle id s' [a.videoMeta.ret] ∧ s'.ret = s.ret ∧ VideoFails pHandle a := by
  rw [openVideo] at herror
  split at herror
  · rename_i hvcb
    obtain ⟨hret, rfl⟩ := call_error herror
    have hcall := (inv.newStream.call (.metaAsked .video a.videoMeta.ret) rfl).1 hret
    exact ⟨hcall, rfl, inv.vcb.symm.trans hvcb, hret⟩
  · cases herror

/-- With the new I/O handle in `pb`. -/
theorem OpenInv.setIo
    (inv : OpenInv pHandle id s []) (hpb : s.oc.pb = none)
    (hfile : s.oc.oformat.noFile = false) (pb : ℕ) :
    OpenInv pHandle id
      ({ s with oc := { s.oc with pb := some pb } }.emit (.ioOpened pb)) [] where
  acb := inv.acb
  vcb := inv.vcb
  listener := inv.listener
  context := inv.context
  allocated := fun oc => by
    rw [OpenState.emit, List.mem_append, inv.allocated oc]
    simp
  opened := fun pb' hmem => by
    rcases List.mem_append.mp hmem with hmem | hmem
    · exact absurd (inv.opened pb' hmem).2 (by simp [hpb])
    · obtain rfl : pb' = pb := by simpa using hmem
      exact ⟨hfile, rfl⟩
  working := fun e hmem => by
    rcases List.mem_append.mp hmem with hmem | hmem
    · exact inv.working e hmem
    · rw [List.mem_singleton.mp hmem]
      rfl
  failures := by
    have hnone : (OpenEvent.ioOpened pb).failure = none := rfl
    simp [OpenState.emit, inv.failures, hnone]

theorem openIo_ok
    (inv : OpenInv pHandle id s []) (hpb : s.oc.pb = none) (hok : openIo a s = .ok s') :
    OpenInv pHandle id s' [] := by
  rw [openIo] at hok
  split at hok
  · obtain rfl := Except.ok.inj hok
    exact inv
  · rename_i hfile
    obtain ⟨hret, rfl⟩ := call_ok hok
    have hcall := ((inv.setRet a.avioOpen).call
      (.avioOpened s.pHandle.ioTimeoutMs a.avioOpen) rfl).2 hret
    exact hcall.setIo hpb (Bool.eq_false_iff.mpr hfile) a.pb

theorem openIo_error
    (inv : OpenInv pHandle id s []) (herror : openIo a s = .error s') :
    OpenInv pHandle id s' [a.avioOpen] ∧ s'.ret = a.avioOpen ∧ a.avioOpen < 0 := by
  rw [openIo] at herror
  split at herror
  · cases herror
  · obtain ⟨hret, rfl⟩ := call_error herror
    have hcall := ((inv.setRet a.avioOpen).call
      (.avioOpened s.pHandle.ioTimeoutMs a.avioOpen) rfl).1 hret
    exact ⟨hcall, rfl, hret⟩

theorem openHeader_ok
    (inv : OpenInv pHandle id s []) (hok : openHeader a s = .ok s') :
    OpenInv pHandle id s' [] := by
  obtain ⟨hret, rfl⟩ := call_ok hok
  exact ((inv.setRet a.writeHeader).call (.headerWritten a.writeHeader) rfl).2 hret

theorem openHeader_error
    (inv : OpenInv pHandle id s []) (herror : openHeader a s = .error s') :
    OpenInv pHandle id s' [a.writeHeader] ∧ s'.ret = a.writeHeader ∧ a.writeHeader < 0 := by
  obtain ⟨hret, rfl⟩ := call_error herror
  exact ⟨((inv.setRet a.writeHeader).call (.headerWritten a.writeHeader) rfl).1 hret, rfl,
    hret⟩

/-- How the parts end: only the calls that are not made in a block of their own leave
their code in `ret`. -/
inductive PartsEnd (pHandle : KoalaMuxer) (a : InitOpenAnswers) (id : ℕ) (ret : Int) :
    Except OpenState OpenState → Prop
  | ok {s : OpenState}
      (inv : OpenInv pHandle id s [])
      (hmeta : metaFailure pHandle a = none) :
      PartsEnd pHandle a id ret (.ok s)
  | metaFails {s : OpenState} {code : Int}
      (inv : OpenInv pHandle id s [code])
      (hcode : code < 0)
      (hmeta : metaFailure pHandle a = some code)
      (hret : s.ret = ret) :
      PartsEnd pHandle a id ret (.error s)
  | callFails {s : OpenState} {code : Int}
      (inv : OpenInv pHandle id s [code])
      (hcode : code < 0)
      (hmeta : metaFailure pHandle a = none)
      (hret : s.ret = code) :
      PartsEnd pHandle a id ret (.error s)

theorem openParts_end
    (inv : OpenInv pHandle id s []) (hpb : s.oc.pb = none) :
    PartsEnd pHandle a id s.ret (openParts a s) := by
  rw [openParts]
  cases haudio : openAudio a s with
  | error s' =>
      obtain ⟨inv', hret, hfails⟩ := openAudio_error inv haudio
      exact .metaFails inv' hfails.2 (if_pos hfails) hret
  | ok s₁ =>
      obtain ⟨inv₁, hret₁, hpb₁, haudioOk⟩ := openAudio_ok inv haudio
      rw [Except.bind]
      cases hvideo : openVideo a s₁ with
      | error s' =>
          obtain ⟨inv', hret, hfails⟩ := openVideo_error inv₁ hvideo
          refine .metaFails inv' hfails.2 ?_ (hret.trans hret₁)
          rw [metaFailure, if_neg haudioOk, if_pos hfails]
      | ok s₂ =>
          obtain ⟨inv₂, -, hpb₂, hvideoOk⟩ := openVideo_ok inv₁ hvideo
          have hmeta : metaFailure pHandle a = none := by
            rw [metaFailure, if_neg haudioOk, if_neg hvideoOk]
          rw [Except.bind]
          cases hio : openIo a s₂ with
          | error s' =>
              obtain ⟨inv', hret, hcode⟩ := openIo_error inv₂ hio
              exact .callFails inv' hcode hmeta hret
          | ok s₃ =>
              have inv₃ := openIo_ok inv₂ (hpb₂.trans (hpb₁.trans hpb)) hio
              rw [Except.bind]
              cases hheader : openHeader a s₃ with
              | error s' =>
                  obtain ⟨inv', hret, hcode⟩ := openHeader_error inv₃ hheader
                  exact .callFails inv' hcode hmeta hret
              | ok s' =>
                  exact .ok (openHeader_ok inv₃ hheader) hmeta

end Parts

/-! ## The ends of the function -/

section Ends

variable {pHandle : MuxerHandle} {id : ℕ} {s : OpenState} {code : Int} {codes : List Int}
variable {e : OpenEvent}

/-- Nothing of the end of the function happens before it. -/
theorem OpenInv.count_ending
    (inv : OpenInv pHandle.muxer id s codes) (he : e.ending = true) :
    s.events.count e = 0 := by
  rw [List.count_eq_zero]
  intro hmem
  rw [inv.working e hmem] at he
  cases he

theorem OpenInv.no_report
    (inv : OpenInv pHandle.muxer id s codes) :
    s.events.filterMap OpenEvent.report = [] := by
  rw [List.filterMap_eq_nil_iff]
  intro e hmem
  have hworking := inv.working e hmem
  cases e <;> simp_all [OpenEvent.report, OpenEvent.ending]

/-- The clean-up after the label. -/
def cleanup (s : OpenState) : List OpenEvent :=
  closeIo s.oc ++ [.contextFreed s.oc.id, .unlocked] ++
    (sendEvent s.pHandle.muxer s.ret).map .sent

theorem openFail_events
    (s : OpenState) :
    (openFail s).events = s.events ++ cleanup s := by
  simp [openFail, cleanup]

theorem cleanup_mem
    {s : OpenState} (he : e ∈ cleanup s) :
    e.ending = true := by
  simp only [cleanup, closeIo, List.mem_append, List.mem_cons, List.mem_map,
    List.not_mem_nil, or_false] at he
  rcases he with (hio | rfl | rfl) | ⟨event, -, rfl⟩
  · split at hio
    · cases hio
    · obtain ⟨pb, -, rfl⟩ := List.mem_map.mp hio
      rfl
  all_goals rfl

theorem cleanup_counts
    (s : OpenState) :
    (cleanup s).count .unlocked = 1 ∧ (cleanup s).count (.contextFreed s.oc.id) = 1 := by
  cases hpb : s.oc.pb <;> cases hfile : s.oc.oformat.noFile <;>
    cases hlistener : s.pHandle.muxer.listener <;>
      simp [cleanup, closeIo, sendEvent, hpb, hfile, hlistener]

/-- The I/O handle is closed. -/
theorem cleanup_closes
    {pb : ℕ} (hfile : s.oc.oformat.noFile = false) (hpb : s.oc.pb = some pb) :
    (cleanup s).count (.ioClosed pb) = 1 := by
  cases hlistener : s.pHandle.muxer.listener <;>
    simp [cleanup, closeIo, sendEvent, hpb, hfile, hlistener]

/-- The listener is told what is in `ret`. -/
theorem cleanup_reports
    (hlistener : s.pHandle.muxer.listener = true) :
    (cleanup s).filterMap OpenEvent.failure = [] ∧
    (cleanup s).filterMap OpenEvent.report = [s.ret] := by
  cases hpb : s.oc.pb <;> cases hfile : s.oc.oformat.noFile <;>
    simp [cleanup, closeIo, sendEvent, hpb, hfile, hlistener, OpenEvent.failure] <;> rfl

/-- After a failure everything is cleaned up; what is reported is what is in `ret`. -/
theorem openFail_clean_iff
    (inv : OpenInv pHandle.muxer id s [code]) (hcode : code < 0) :
    CleanOpen pHandle (openFail s) ↔ (pHandle.muxer.listener = true → s.ret = code) := by
  have hcounts := cleanup_counts s
  have hallocated : ∀ oc, .contextAllocated oc ∈ (openFail s).events → oc = s.oc.id := by
    intro oc hmem
    rw [openFail_events] at hmem
    rcases List.mem_append.mp hmem with hmem | hmem
    · exact ((inv.allocated oc).mp hmem).trans inv.context.symm
    · cases cleanup_mem hmem
  constructor
  · intro h hlistener
    have hlistener' : s.pHandle.muxer.listener = true := inv.listener.trans hlistener
    have hmem : .contextAllocated id ∈ (openFail s).events := by
      rw [openFail_events]
      exact List.mem_append_left _ ((inv.allocated id).mpr rfl)
    obtain ⟨code', -, hfailures, hreports⟩ := h.reported rfl id hmem hlistener
    rw [openFail_events, List.filterMap_append] at hfailures hreports
    rw [inv.failures, (cleanup_reports hlistener').1, List.append_nil] at hfailures
    rw [inv.no_report, (cleanup_reports hlistener').2, List.nil_append] at hreports
    exact (List.singleton_inj.mp hreports).trans (List.singleton_inj.mp hfailures).symm
  · intro hret
    refine ⟨?_, fun _ => rfl, fun _ pb hmem => ?_, fun _ oc hmem => ?_,
      fun _ oc hmem hlistener => ?_⟩
    · rw [openFail_events, List.count_append, inv.count_ending rfl, hcounts.1]
    · rw [openFail_events] at hmem ⊢
      rcases List.mem_append.mp hmem with hmem | hmem
      · obtain ⟨hfile, hpb⟩ := inv.opened pb hmem
        rw [List.count_append, inv.count_ending rfl, cleanup_closes hfile hpb]
      · cases cleanup_mem hmem
    · rw [hallocated oc hmem, openFail_events, List.count_append, inv.count_ending rfl,
        hcounts.2]
    · have hlistener' : s.pHandle.muxer.listener = true := inv.listener.trans hlistener
      obtain ⟨hfailures, hreports⟩ := cleanup_reports hlistener'
      refine ⟨code, hcode, ?_, ?_⟩
      · rw [openFail_events, List.filterMap_append, inv.failures, hfailures]
        rfl
      · rw [openFail_events, List.filterMap_append, inv.no_report, hreports, hret hlistener]
        rfl

/-- A success is not concerned. -/
theorem openDone_clean
    (inv : OpenInv pHandle.muxer id s []) :
    CleanOpen pHandle (openDone s) := by
  have hret : (openDone s).ret ≠ -1 := by
    show (0 : Int) ≠ -1
    decide
  refine ⟨?_, fun h => absurd h hret, fun h => absurd h hret, fun h => absurd h hret,
    fun h => absurd h hret⟩
  show (s.events ++ [OpenEvent.unlocked]).count .unlocked = 1
  rw [List.count_append, inv.count_ending rfl]
  rfl

/-- An open that comes to no context. -/
theorem noContext_clean_iff
    {x : OpenExit} (hret : x.ret = -1) (hunlocked : x.events.count .unlocked = 1)
    (hnone : ∀ oc, .contextAllocated oc ∉ x.events) (hio : ∀ pb, .ioOpened pb ∉ x.events) :
    CleanOpen pHandle x ↔ x.pHandle.oc = none := by
  constructor
  · intro h
    exact h.ocNull hret
  · intro hoc
    exact ⟨hunlocked, fun _ => hoc, fun _ pb hmem => absurd hmem (hio pb),
      fun _ oc hmem => absurd hmem (hnone oc), fun _ oc hmem => absurd hmem (hnone oc)⟩

/-- The handle with a new context. -/
theorem openInv_start
    (pHandle : MuxerHandle) (id : ℕ) (oformat : AVOutputFormat) (ret : Int) :
    OpenInv pHandle.muxer id
      ⟨pHandle, ⟨id, oformat, none, 0⟩, ret, [.locked, .contextAllocated id]⟩ [] where
  acb := rfl
  vcb := rfl
  listener := rfl
  context := rfl
  allocated := by simp
  opened := by simp
  working := by simp [OpenEvent.ending]
  failures := by simp [OpenEvent.failure]

end Ends

/--
An open is clean and reported if and only if it is not asked to open NULL over an old
context, and no metadata callback fails while a listener waits for a code that the
uninitialised `ret` does not hold.
-/
theorem open_clean_iff
    (pHandle : MuxerHandle) (outName : Option CString) (a : InitOpenAnswers) (ret : Int) :
    CleanOpen pHandle (koalaMuxerInitOpen pHandle outName a ret) ↔
      (outName = none → pHandle.oc = none) ∧
      (outName ≠ none → a.oc ≠ none → pHandle.muxer.listener = true →
        ∀ code, metaFailure pHandle.muxer a = some code → ret = code) := by
  cases outName with
  | none =>
      have hevents : koalaMuxerInitOpen pHandle none a ret =
          { ret := -1
            pHandle := pHandle
            events := [.locked] ++ (sendEvent pHandle.muxer ret).map .sent ++ [.unlocked] } := by
        rfl
      rw [hevents, noContext_clean_iff rfl]
      · simp
      · cases hlistener : pHandle.muxer.listener <;> simp [sendEvent, hlistener]
      · simp
      · simp
  | some name =>
      cases hoc : a.oc with
      | none =>
          have hevents : koalaMuxerInitOpen pHandle (some name) a ret =
              { ret := -1
                pHandle := { pHandle with oc := none }
                events := [.locked, .unlocked] } := by
            simp only [koalaMuxerInitOpen, hoc]
          rw [hevents, noContext_clean_iff rfl] <;> simp
      | some context =>
          obtain ⟨id, oformat⟩ := context
          have inv := openInv_start pHandle id oformat ret
          have hend := openParts_end (a := a) inv rfl
          cases hparts : openParts a
              ⟨pHandle, ⟨id, oformat, none, 0⟩, ret, [.locked, .contextAllocated id]⟩ with
          | ok s =>
              have hopen : koalaMuxerInitOpen pHandle (some name) a ret = openDone s := by
                simp only [koalaMuxerInitOpen, hoc, hparts]
              rw [hparts] at hend
              cases hend with
              | ok inv' hmeta =>
                  simp [hopen, hmeta, openDone_clean inv']
          | error s =>
              have hopen : koalaMuxerInitOpen pHandle (some name) a ret = openFail s := by
                simp only [koalaMuxerInitOpen, hoc, hparts]
              rw [hparts] at hend
              cases hend with
              | metaFails inv' hcode hmeta hret =>
                  simp [hopen, openFail_clean_iff inv' hcode, hmeta, hret]
              | callFails inv' hcode hmeta hret =>
                  simp [hopen, openFail_clean_iff inv' hcode, hmeta, hret]

/-- The audio callback fails with -1 while `ret` happens to be 0. -/
theorem open_clean_fails_metadata :
    let pHandle := { koalaGetHandle with
      muxer := koalaMuxerSetListener
        (koalaMuxerRegDataCallback koalaGetMuxerHandle true false) true }
    let a : InitOpenAnswers := ⟨some (1, ⟨"flv", false⟩), ⟨-1, 0⟩, ⟨0, 0⟩, 0, 2, 0⟩
    koalaMuxerInitOpen pHandle (some (ofLiteral "out.flv")) a 0 =
      ⟨-1, pHandle, [.locked, .contextAllocated 1, .metaAsked .audio (-1), .contextFreed 1,
        .unlocked, .sent (.notified 0)]⟩ ∧
    ¬CleanOpen pHandle
      (koalaMuxerInitOpen pHandle (some (ofLiteral "out.flv")) a 0) := by
  refine ⟨rfl, fun h => ?_⟩
  obtain ⟨code, hcode, -, hreport⟩ := h.reported rfl 1 (by decide) rfl
  have hzero : [0] = [code] := hreport
  rw [List.singleton_inj] at hzero
  omega

end KoalaStreamer
