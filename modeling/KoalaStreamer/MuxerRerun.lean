import KoalaStreamer.MuxMerge
import KoalaStreamer.MuxSkew
import KoalaStreamer.MuxerOpen

/-!
# koala_muxer.c: koala_muxer_end and the next run

One caller uses a handle while the mux thread works on it.  `koala_muxer_end` sets
`end`, waits for the thread and sets `first_pts` and `mux_id` back.

Main results:
* `run_muxing`: what the fields hold after `koala_muxer_end`;
* `muxer_end_never_undoes`: the next run submits one packet at most, however many the
  same callbacks and writes make on a fresh handle.
-/

namespace KoalaStreamer

open CStrings EventMachine

/-- The locals of `mux_thread`, and its counters. -/
structure MuxThread where
  encode : StreamType → Bool
  calls : StreamType → ℕ
  writes : ℕ
  finished : Bool

/-- The loop of the thread on the handle. -/
def MuxThread.loop (t : MuxThread) (muxer : KoalaMuxer) : MuxState where
  pHandle := muxer
  encode := t.encode
  calls := t.calls
  writes := t.writes
  finished := t.finished

def MuxState.thread (s : MuxState) : MuxThread where
  encode := s.encode
  calls := s.calls
  writes := s.writes
  finished := s.finished

structure MuxerState where
  pHandle : MuxerHandle
  thread : Option MuxThread
  /-- The caller is in `koala_muxer_end`, after `pHandle->end = 1`. -/
  ending : Bool

/-- A call of the caller; of `koala_muxer_end`, the part before the lock. -/
inductive MuxerCall
  | regDataCallback (acb vcb : Bool)
  | setListener (listener : Bool)
  | initOpen (outName : Option CString) (a : InitOpenAnswers) (ret : Int)
  /-- `created` is what `pthread_create` stores in `mux_id`; 0 if it fails. -/
  | start (created : ℕ)
  | setEnd

inductive MuxerAction
  | call (c : MuxerCall)
  /-- A pass of the loop of `mux_thread`. -/
  | pass (callback : StreamType → CallbackResult) (written : Int)
  /-- The rest of `koala_muxer_end`. -/
  | join

inductive MuxerEvent
  | init (e : OpenEvent)
  | mux (e : MuxEvent)

section Calls

/-- `encode_interrupt_cb`. -/
def encodeInterruptCb (pHandle : MuxerHandle) : Int :=
  if 1 = pHandle.ended then 1 else 0

/-- `koala_muxer_reg_data_callback`. -/
def MuxerHandle.regDataCallback (pHandle : MuxerHandle) (acb vcb : Bool) : MuxerHandle :=
  { pHandle with muxer := koalaMuxerRegDataCallback pHandle.muxer acb vcb }

/-- `koala_muxer_set_listener`. -/
def MuxerHandle.setListener (pHandle : MuxerHandle) (listener : Bool) : MuxerHandle :=
  { pHandle with muxer := koalaMuxerSetListener pHandle.muxer listener }

/-- `koala_muxer_start`: the handle, and the thread if one is created. -/
def koalaMuxerStart (pHandle : MuxerHandle) (created : ℕ) :
    MuxerHandle × Option MuxThread :=
  if pHandle.muxId = 0 ∧ created ≠ 0 then
    ({ pHandle with muxId := created }, some (MuxState.start pHandle.muxer).thread)
  else
    (pHandle, none)

/-- `koala_muxer_end` after the join. -/
def koalaMuxerReset (pHandle : MuxerHandle) : MuxerHandle :=
  { pHandle with
    muxer := { pHandle.muxer with firstPts := -1 }
    muxId := 0 }

/-- A pass of `mux_thread`, which writes to `oc`. -/
def muxerPass
    (lib : LibAv) (s : MuxerState) (callback : StreamType → CallbackResult)
    (written : Int) : Option (MuxerState × List MuxerEvent) :=
  match s.thread, s.pHandle.oc with
  | some t, some _ =>
      (muxStep lib (t.loop s.pHandle.muxer)
        ⟨callback, written, s.pHandle.ended ≠ 0⟩).map fun next =>
          ({ s with
              pHandle := { s.pHandle with muxer := next.1.pHandle }
              thread := some next.1.thread },
            next.2.map .mux)
  | _, _ => none

/-- A call. -/
def muxerCall (s : MuxerState) : MuxerCall → MuxerState × List MuxerEvent
  | .regDataCallback acb vcb => ({ s with pHandle := s.pHandle.regDataCallback acb vcb }, [])
  | .setListener listener => ({ s with pHandle := s.pHandle.setListener listener }, [])
  | .initOpen outName a ret =>
      ({ s with pHandle := (koalaMuxerInitOpen s.pHandle outName a ret).pHandle },
        (koalaMuxerInitOpen s.pHandle outName a ret).events.map .init)
  | .start created =>
      ({ s with
          pHandle := (koalaMuxerStart s.pHandle created).1
          thread := (koalaMuxerStart s.pHandle created).2.or s.thread },
        [])
  | .setEnd => ({ s with pHandle := { s.pHandle with ended := 1 }, ending := true }, [])

/-- The caller and the mux thread. -/
def muxerStep (lib : LibAv) : Machine MuxerState MuxerAction MuxerEvent
  | s, .call c => if s.ending then none else some (muxerCall s c)
  | s, .pass callback written => muxerPass lib s callback written
  | s, .join =>
      if s.ending ∧ s.thread.all (·.finished) then
        some (⟨koalaMuxerReset s.pHandle, none, false⟩, [])
      else none

/-- A fresh handle. -/
def MuxerState.fresh : MuxerState where
  pHandle := koalaGetHandle
  thread := none
  ending := false

end Calls

/-! ## What a run leaves -/

section Law

/-- The fields that the next run reads. -/
structure MuxingState where
  ended : Int
  firstPts : Int
  lastAudioPts : Int
  lastVideoPts : Int
  reqIFrame : Int
  muxId : ℕ
deriving DecidableEq, Repr

def MuxerHandle.muxing (pHandle : MuxerHandle) : MuxingState where
  ended := pHandle.ended
  firstPts := pHandle.muxer.firstPts
  lastAudioPts := pHandle.muxer.lastAudioPts
  lastVideoPts := pHandle.muxer.lastVideoPts
  reqIFrame := pHandle.muxer.reqIFrame
  muxId := pHandle.muxId

/-- What the mux thread does. -/
def muxEventsOf (es : List MuxerEvent) : List MuxEvent :=
  es.filterMap fun
    | .mux e => some e
    | _ => none

/-- The pts that was written last for the stream; 0 if none was. -/
def lastWritten (stream : StreamType) (es : List MuxerEvent) : Int :=
  (submittedPts stream (muxEventsOf es)).getLast?.getD 0

/-- The next pass, by the number of the call. -/
def MuxEnv.nextPass (env : MuxEnv) (s : MuxerState) : MuxerAction :=
  .pass (fun stream => env.callback stream ((s.thread.map (·.calls stream)).getD 0))
    (env.written ((s.thread.map (·.writes)).getD 0))

/-- What is submitted in the next `n` passes. -/
def passes (lib : LibAv) (env : MuxEnv) (n : ℕ) (s : MuxerState) : List Submission :=
  submissions (muxEventsOf (eventsOf (drive (muxerStep lib) env.nextPass n s).1))

/-- `koala_muxer_init_open` and, if it succeeds, `koala_muxer_start` and `n` passes. -/
def nextRun
    (lib : LibAv) (pHandle : MuxerHandle) (outName : Option CString) (a : InitOpenAnswers)
    (ret : Int) (created : ℕ) (env : MuxEnv) (n : ℕ) : List Submission :=
  let opened := koalaMuxerInitOpen pHandle outName a ret
  if opened.ret = 0 then
    let started := koalaMuxerStart opened.pHandle created
    passes lib env n ⟨started.1, started.2, false⟩
  else []

/-- A fresh handle with the same callbacks and listener. -/
def MuxerHandle.renewed (pHandle : MuxerHandle) : MuxerHandle :=
  (koalaGetHandle.regDataCallback pHandle.muxer.acb pHandle.muxer.vcb).setListener
    pHandle.muxer.listener

/-- The next run submits what the first one on a fresh handle does. -/
def RunsAlike (lib : LibAv) (pHandle : MuxerHandle) : Prop :=
  ∀ outName a ret created env n,
    nextRun lib pHandle outName a ret created env n =
      nextRun lib pHandle.renewed outName a ret created env n

/-- The run is undone. -/
def RunUndone (lib : LibAv) (pHandle : MuxerHandle) : Prop :=
  pHandle.muxing = koalaGetHandle.muxing ∧ RunsAlike lib pHandle

end Law

section Keeps

variable {h h' h'' : MuxerHandle} {a : InitOpenAnswers} {s s' : OpenState}

/-- The muxing state and the callbacks are left alone. -/
structure KeepsMuxing (h h' : MuxerHandle) : Prop where
  muxing : h'.muxing = h.muxing
  acb : h'.muxer.acb = h.muxer.acb
  vcb : h'.muxer.vcb = h.muxer.vcb

theorem KeepsMuxing.refl
    (h : MuxerHandle) :
    KeepsMuxing h h :=
  ⟨rfl, rfl, rfl⟩

theorem KeepsMuxing.trans
    (h₁ : KeepsMuxing h h') (h₂ : KeepsMuxing h' h'') :
    KeepsMuxing h h'' :=
  ⟨h₂.muxing.trans h₁.muxing, h₂.acb.trans h₁.acb, h₂.vcb.trans h₁.vcb⟩

/-- Where a part of `koala_muxer_init_open` ends, with or without a failure. -/
def partEnd : Except OpenState OpenState → OpenState
  | .ok s => s
  | .error s => s

theorem openAudio_keeps
    (a : InitOpenAnswers) (s : OpenState) :
    KeepsMuxing s.pHandle (partEnd (openAudio a s)).pHandle := by
  have hinit : KeepsMuxing s.pHandle
      { s.pHandle with
        muxer := initOpenAudio s.pHandle.muxer s.oc.oformat.name s.oc.nbStreams
          a.audioMeta.samplerate } := by
    constructor <;> simp only [MuxerHandle.muxing, initOpenAudio] <;> split <;> rfl
  rw [openAudio]
  split
  · split
    · exact .refl _
    · exact hinit
  · exact .refl _

theorem openVideo_keeps
    (a : InitOpenAnswers) (s : OpenState) :
    KeepsMuxing s.pHandle (partEnd (openVideo a s)).pHandle := by
  have hinit : KeepsMuxing s.pHandle
      { s.pHandle with
        muxer := initOpenVideo s.pHandle.muxer s.oc.oformat.name s.oc.nbStreams } := by
    constructor <;> simp only [MuxerHandle.muxing, initOpenVideo] <;> split <;> rfl
  rw [openVideo]
  split
  · split
    · exact .refl _
    · exact hinit
  · exact .refl _

theorem openIo_keeps
    (a : InitOpenAnswers) (s : OpenState) :
    KeepsMuxing s.pHandle (partEnd (openIo a s)).pHandle := by
  rw [openIo]
  split
  · exact .refl _
  · split <;> exact .refl _

theorem openHeader_keeps
    (a : InitOpenAnswers) (s : OpenState) :
    KeepsMuxing s.pHandle (partEnd (openHeader a s)).pHandle := by
  rw [openHeader]
  split <;> exact .refl _

/-- A part after another one. -/
theorem keeps_bind
    {x : Except OpenState OpenState} {part : OpenPart}
    (hx : KeepsMuxing h (partEnd x).pHandle)
    (hpart : ∀ s, KeepsMuxing s.pHandle (partEnd (part s)).pHandle) :
    KeepsMuxing h (partEnd (x.bind part)).pHandle := by
  cases x with
  | error s =>
      exact hx
  | ok s =>
      exact hx.trans (hpart s)

theorem openParts_keeps
    (a : InitOpenAnswers) (s : OpenState) :
    KeepsMuxing s.pHandle (partEnd (openParts a s)).pHandle :=
  keeps_bind (openAudio_keeps a s) fun s =>
    keeps_bind (openVideo_keeps a s) fun s =>
      keeps_bind (openIo_keeps a s) (openHeader_keeps a)

/-- `koala_muxer_init_open` does not set the muxing state. -/
theorem initOpen_keeps
    (pHandle : MuxerHandle) (outName : Option CString) (a : InitOpenAnswers) (ret : Int) :
    KeepsMuxing pHandle (koalaMuxerInitOpen pHandle outName a ret).pHandle := by
  unfold koalaMuxerInitOpen
  split
  · exact .refl _
  · exact ⟨rfl, rfl, rfl⟩
  · rename_i id oformat _
    have hkeeps := openParts_keeps a
      ⟨pHandle, ⟨id, oformat, none, 0⟩, ret, [.locked, .contextAllocated id]⟩
    simp only
    cases hparts : openParts a
        ⟨pHandle, ⟨id, oformat, none, 0⟩, ret, [.locked, .contextAllocated id]⟩ with
    | ok s =>
        rw [hparts] at hkeeps
        exact ⟨hkeeps.muxing, hkeeps.acb, hkeeps.vcb⟩
    | error s =>
        rw [hparts] at hkeeps
        exact ⟨hkeeps.muxing, hkeeps.acb, hkeeps.vcb⟩

end Keeps

/-! ## The fields along a run -/

abbrev MuxerTransition := Transition MuxerState MuxerAction MuxerEvent

section Fields

variable {lib : LibAv} {s s' : MuxerState} {es : List MuxerEvent}

@[simp] theorem muxEventsOf_append
    (es es' : List MuxerEvent) :
    muxEventsOf (es ++ es') = muxEventsOf es ++ muxEventsOf es' := by
  simp [muxEventsOf]

@[simp] theorem muxEventsOf_mux
    (es : List MuxEvent) :
    muxEventsOf (es.map .mux) = es := by
  simp [muxEventsOf, List.filterMap_map]

@[simp] theorem muxEventsOf_init
    (es : List OpenEvent) :
    muxEventsOf (es.map .init) = [] := by
  simp [muxEventsOf, List.filterMap_map]

/-- A pass of the thread is a step of its loop. -/
theorem muxerPass_inv
    {callback : StreamType → CallbackResult} {written : Int}
    (hstep : muxerPass lib s callback written = some (s', es)) :
    ∃ t next es', s.thread = some t ∧ s.pHandle.oc ≠ none ∧
      muxStep lib (t.loop s.pHandle.muxer) ⟨callback, written, s.pHandle.ended ≠ 0⟩ =
        some (next, es') ∧
      s' = { s with
        pHandle := { s.pHandle with muxer := next.pHandle }
        thread := some next.thread } ∧
      es = es'.map .mux := by
  rw [muxerPass] at hstep
  split at hstep
  · rename_i t oc hthread hoc
    obtain ⟨next, hmux, heq⟩ := Option.map_eq_some_iff.mp hstep
    obtain ⟨rfl, rfl⟩ := Prod.mk.inj heq
    exact ⟨t, next.1, next.2, hthread, by simp [hoc], hmux, rfl, rfl⟩
  · cases hstep

/-- What holds in every state of a run. -/
structure MuxerInv (es : List MuxerEvent) (s : MuxerState) : Prop where
  ending : s.ending = true → s.pHandle.ended = 1
  reqIFrame : s.pHandle.muxer.reqIFrame = 0
  lastPts : ∀ stream, s.pHandle.muxer.lastPts stream = lastWritten stream es

theorem lastPts_of_muxing
    {h h' : MuxerHandle} (hmuxing : h'.muxing = h.muxing) :
    h'.muxer.lastPts = h.muxer.lastPts := by
  have haudio := congrArg MuxingState.lastAudioPts hmuxing
  have hvideo := congrArg MuxingState.lastVideoPts hmuxing
  funext stream
  cases stream with
  | video => exact hvideo
  | audio => exact haudio

/-- Without a pass the fields stay what they are. -/
theorem MuxerInv.keeps
    {es' : List MuxerEvent} (inv : MuxerInv es s)
    (hending : s'.ending = true → s'.pHandle.ended = 1)
    (hreq : s'.pHandle.muxer.reqIFrame = s.pHandle.muxer.reqIFrame)
    (hlast : s'.pHandle.muxer.lastPts = s.pHandle.muxer.lastPts)
    (hes : muxEventsOf es' = []) :
    MuxerInv (es ++ es') s' where
  ending := hending
  reqIFrame := hreq.trans inv.reqIFrame
  lastPts := fun stream => by
    rw [hlast, inv.lastPts stream, lastWritten, lastWritten, muxEventsOf_append, hes,
      List.append_nil]

/-- A call sets nothing but `end` and `mux_id`. -/
theorem muxerCall_inv
    {es : List MuxerEvent} (inv : MuxerInv es s) (hfree : s.ending ≠ true) (c : MuxerCall) :
    MuxerInv (es ++ (muxerCall s c).2) (muxerCall s c).1 := by
  cases c with
  | regDataCallback acb vcb =>
      exact inv.keeps inv.ending rfl rfl rfl
  | setListener listener =>
      exact inv.keeps inv.ending rfl rfl rfl
  | initOpen outName a ret =>
      have hkeeps := (initOpen_keeps s.pHandle outName a ret).muxing
      exact inv.keeps (fun hending => absurd hending hfree)
        (congrArg MuxingState.reqIFrame hkeeps) (lastPts_of_muxing hkeeps)
        (muxEventsOf_init _)
  | start created =>
      have hhandle : (koalaMuxerStart s.pHandle created).1.muxer = s.pHandle.muxer := by
        rw [koalaMuxerStart]
        split <;> rfl
      exact inv.keeps (fun hending => absurd hending hfree)
        (congrArg KoalaMuxer.reqIFrame hhandle) (congrArg KoalaMuxer.lastPts hhandle) rfl
  | setEnd =>
      exact inv.keeps (fun _ => rfl) rfl rfl rfl

theorem muxerStep_inv
    {es es' : List MuxerEvent} {action : MuxerAction}
    (inv : MuxerInv es s) (hstep : muxerStep lib s action = some (s', es')) :
    MuxerInv (es ++ es') s' := by
  cases action with
  | call c =>
      simp only [muxerStep] at hstep
      split at hstep
      · cases hstep
      · rename_i hfree
        obtain ⟨rfl, rfl⟩ := Prod.mk.inj (Option.some.inj hstep)
        exact muxerCall_inv inv hfree c
  | pass callback written =>
      obtain ⟨t, next, es₁, -, -, hmux, rfl, rfl⟩ := muxerPass_inv hstep
      refine ⟨inv.ending, muxStep_reqIFrame inv.reqIFrame hmux, fun stream => ?_⟩
      refine (muxStep_lastPts inv.reqIFrame hmux stream).trans ?_
      rw [lastWritten, muxEventsOf_append, muxEventsOf_mux, submittedPts_append,
        List.getLast?_append]
      have hlast := inv.lastPts stream
      rw [lastWritten] at hlast
      cases hnew : (submittedPts stream es₁).getLast? with
      | none =>
          simpa [MuxThread.loop] using hlast
      | some pts =>
          simp
  | join =>
      simp only [muxerStep] at hstep
      split at hstep
      · obtain ⟨rfl, rfl⟩ := Prod.mk.inj (Option.some.inj hstep)
        exact inv.keeps nofun rfl rfl rfl
      · cases hstep

theorem run_muxerInv
    {tr : List MuxerTransition} (run : Run (muxerStep lib) MuxerState.fresh tr s) :
    MuxerInv (eventsOf tr) s := by
  refine run.invariant (fun tr s => MuxerInv (eventsOf tr) s) ?_ ?_
  · refine ⟨nofun, rfl, fun stream => ?_⟩
    cases stream <;> rfl
  · intro tr s action es s' inv hstep
    rw [eventsOf_snoc]
    exact muxerStep_inv inv hstep

/-- What `koala_muxer_end` leaves. -/
theorem run_muxing
    {tr : List MuxerTransition} (run : Run (muxerStep lib) MuxerState.fresh tr s)
    (hend : tr.getLast?.map (·.action) = some .join) :
    s.pHandle.muxing =
      ⟨1, -1, lastWritten .audio (eventsOf tr), lastWritten .video (eventsOf tr), 0, 0⟩ := by
  obtain ⟨τ, hlast, haction⟩ := Option.map_eq_some_iff.mp hend
  obtain ⟨before, rfl⟩ := List.getLast?_eq_some_iff.mp hlast
  have inv := run_muxerInv run
  obtain ⟨hbefore, hvalid, rfl⟩ := run.snoc_inv
  have hstep : muxerStep lib τ.src τ.action = some (τ.dst, τ.events) := hvalid
  rw [haction] at hstep
  simp only [muxerStep] at hstep
  split at hstep
  · rename_i hjoin
    have hended := (run_muxerInv hbefore).ending hjoin.1
    have hdst : τ.dst = ⟨koalaMuxerReset τ.src.pHandle, none, false⟩ :=
      (Prod.mk.inj (Option.some.inj hstep)).1.symm
    have haudio := inv.lastPts .audio
    have hvideo := inv.lastPts .video
    rw [← haudio, ← hvideo]
    have hreq := inv.reqIFrame
    rw [hdst] at hreq ⊢
    simp only [MuxerHandle.muxing, koalaMuxerReset] at hreq ⊢
    rw [hended, hreq]
    rfl
  · cases hstep

end Fields

/-! ## The next run -/

section NextRun

variable {lib : LibAv} {env : MuxEnv} {n : ℕ} {h : MuxerHandle}
variable {s s' : MuxerState} {t : MuxThread} {es : List MuxerEvent}

theorem passes_succ
    (hstep : muxerStep lib s (env.nextPass s) = some (s', es)) :
    passes lib env (n + 1) s = submissions (muxEventsOf es) ++ passes lib env n s' := by
  simp [passes, drive, hstep, eventsOf]

theorem passes_refused
    (hstep : muxerStep lib s (env.nextPass s) = none) :
    passes lib env n s = [] := by
  cases n <;> simp [passes, drive, hstep, eventsOf, muxEventsOf]

/-- The thread does nothing once it has returned. -/
theorem passes_finished
    (hfinished : ∀ t ∈ s.thread, t.finished = true) :
    passes lib env n s = [] := by
  cases hstep : muxerStep lib s (env.nextPass s) with
  | none =>
      exact passes_refused hstep
  | some next =>
      obtain ⟨t, m, es, hthread, -, hmux, -⟩ := muxerPass_inv hstep
      rw [muxStep_eq_none_iff.mpr (hfinished t hthread)] at hmux
      cases hmux

/-- A call of `write_frame` submits one packet at most. -/
theorem WriteMove.submits_one
    {m : KoalaMuxer} {stream : StreamType} {call : ℕ} {answer : CallbackResult}
    {written : Int} {w : WriteFrameExit} (hw : WriteMove lib m stream call answer written w) :
    (submissions w.events).length ≤ 1 := by
  cases hw <;> simp

/-- With `end` set there is one pass. -/
theorem passes_ended
    (hended : s.pHandle.ended ≠ 0) :
    (passes lib env n s).length ≤ 1 := by
  cases n with
  | zero =>
      exact Nat.zero_le 1
  | succ n =>
      cases hstep : muxerStep lib s (env.nextPass s) with
      | none =>
          simp [passes_refused hstep]
      | some next =>
          obtain ⟨t, m, es, -, -, hmux, hnext, hes⟩ := muxerPass_inv hstep
          have hfinished : m.finished = true := by
            cases muxStep_move hmux with
            | loopEnd _ _ => rfl
            | pass _ _ _ _ _ => simpa using hended
          have hone : (submissions es).length ≤ 1 := by
            cases muxStep_move hmux with
            | loopEnd _ _ => simp
            | pass _ _ _ _ hw => simpa using hw.submits_one
          have hrest : passes lib env n next.1 = [] := by
            refine passes_finished fun t ht => ?_
            rw [hnext, Option.mem_some_iff] at ht
            rw [← ht]
            exact hfinished
          rw [passes_succ hstep, hrest, hes, muxEventsOf_mux, List.append_nil]
          exact hone

/-- Without a stream to encode nothing is submitted. -/
theorem passes_idle
    (hidle : ∀ t ∈ s.thread, ∀ stream, t.encode stream = false) :
    passes lib env n s = [] := by
  cases n with
  | zero =>
      rfl
  | succ n =>
      cases hstep : muxerStep lib s (env.nextPass s) with
      | none =>
          exact passes_refused hstep
      | some next =>
          obtain ⟨t, m, es, hthread, -, hmux, hnext, hes⟩ := muxerPass_inv hstep
          cases muxStep_move hmux with
          | loopEnd _ _ =>
              have hrest : passes lib env n next.1 = [] := by
                refine passes_finished fun t ht => ?_
                rw [hnext, Option.mem_some_iff] at ht
                rw [← ht]
                rfl
              rw [passes_succ hstep, hrest, hes, muxEventsOf_mux]
              rfl
          | pass stream _ _ hencode _ =>
              exact absurd hencode (by simp [MuxThread.loop, hidle t hthread stream])

/-- Every callback delivers a frame and every write succeeds. -/
def deliverAll : MuxEnv where
  callback := fun _ _ => ⟨0, mediaFrameCreate⟩
  written := fun _ => 0

/-- The loop is at work. -/
structure Busy (s : MuxerState) (t : MuxThread) : Prop where
  thread : s.thread = some t
  running : t.finished = false
  encodes : ∃ stream, t.encode stream = true
  registered : ∀ stream, t.encode stream = true → s.pHandle.muxer.haveStream stream = true
  reqIFrame : s.pHandle.muxer.reqIFrame = 0
  ended : s.pHandle.ended = 0
  oc : s.pHandle.oc ≠ none

/-- What `write_frame` does with a frame that is delivered and written. -/
theorem WriteMove.delivers
    {m : KoalaMuxer} {stream : StreamType} {call : ℕ} {frame : MediaFrame}
    {w : WriteFrameExit} (hw : WriteMove lib m stream call ⟨0, frame⟩ 0 w)
    (hhave : m.haveStream stream = true) (hreq : m.reqIFrame = 0) :
    w.ret = 0 ∧ (submissions w.events).length = 1 := by
  cases hw with
  | noCallback hnone =>
      rw [hhave] at hnone
      cases hnone
  | sourceEnd _ hret =>
      exact absurd hret (Int.lt_irrefl 0)
  | dropped _ _ _ hgate =>
      rw [reqIFrameGate_of_zero hreq] at hgate
      cases hgate
  | wrote _ _ _ _ =>
      exact ⟨rfl, by simp⟩

/-- A pass in which everything succeeds submits one packet. -/
theorem muxStep_delivers
    {m m' : MuxState} {es : List MuxEvent} {frame : MediaFrame}
    (hencodes : ∃ stream, m.encode stream = true)
    (hhave : ∀ stream, m.encode stream = true → m.pHandle.haveStream stream = true)
    (hreq : m.pHandle.reqIFrame = 0)
    (hmux : muxStep lib m ⟨fun _ => ⟨0, frame⟩, 0, false⟩ = some (m', es)) :
    m'.finished = false ∧ m'.encode = m.encode ∧
      m'.pHandle.haveStream = m.pHandle.haveStream ∧ (submissions es).length = 1 := by
  cases muxStep_move hmux with
  | loopEnd _ hdone =>
      obtain ⟨stream, hencode⟩ := hencodes
      rw [hdone stream] at hencode
      cases hencode
  | pass stream w _ hencode hw =>
      obtain ⟨hret, hone⟩ := hw.delivers (hhave stream hencode) hreq
      refine ⟨rfl, ?_, haveStream_of_setup hw.setup, by simpa using hone⟩
      simp [MuxState.serve, hret, ← hencode]

/-- A pass in which everything succeeds leaves the loop at work. -/
theorem Busy.pass
    (lib : LibAv) (hbusy : Busy s t) :
    ∃ s' t' es, muxerStep lib s (deliverAll.nextPass s) = some (s', es) ∧ Busy s' t' ∧
      (submissions (muxEventsOf es)).length = 1 := by
  obtain ⟨oc, hoc⟩ := Option.ne_none_iff_exists'.mp hbusy.oc
  have hended : decide (s.pHandle.ended ≠ 0) = false := by simp [hbusy.ended]
  have hruns : muxStep lib (t.loop s.pHandle.muxer)
      ⟨fun _ => ⟨0, mediaFrameCreate⟩, 0, false⟩ ≠ none := by
    rw [Ne, muxStep_eq_none_iff]
    simp [MuxThread.loop, hbusy.running]
  obtain ⟨⟨m, es⟩, hmux⟩ := Option.ne_none_iff_exists'.mp hruns
  obtain ⟨hrunning, hencode, hhave, hone⟩ :=
    muxStep_delivers hbusy.encodes hbusy.registered hbusy.reqIFrame hmux
  refine ⟨{ s with
    pHandle := { s.pHandle with muxer := m.pHandle }
    thread := some m.thread }, m.thread, es.map .mux, ?_, ?_, ?_⟩
  · simp only [MuxEnv.nextPass, muxerStep, muxerPass, hbusy.thread, hoc, hended, deliverAll,
      hmux, Option.map_some]
  · have hencode' : m.thread.encode = t.encode := hencode
    have hhave' : m.pHandle.haveStream = s.pHandle.muxer.haveStream := hhave
    exact
      { thread := rfl
        running := hrunning
        encodes := hencode' ▸ hbusy.encodes
        registered := by rw [hencode', hhave']; exact hbusy.registered
        reqIFrame := muxStep_reqIFrame hbusy.reqIFrame hmux
        ended := hbusy.ended
        oc := hbusy.oc }
  · rw [muxEventsOf_mux]
    exact hone

/-- Nobody ends it, so every pass submits a packet. -/
theorem Busy.passes
    (hbusy : Busy s t) (n : ℕ) :
    (passes lib deliverAll n s).length = n := by
  induction n generalizing s t with
  | zero =>
      rfl
  | succ n ih =>
      obtain ⟨s', t', es, hstep, hbusy', hone⟩ := hbusy.pass lib
      rw [passes_succ hstep, List.length_append, hone, ih hbusy', Nat.add_comm]

/-- Answers with which an open succeeds. -/
def openAll : InitOpenAnswers where
  oc := some (1, ⟨"flv", false⟩)
  audioMeta := ⟨0, 44100⟩
  videoMeta := ⟨0, 0⟩
  avioOpen := 0
  pb := 2
  writeHeader := 0

theorem initOpen_openAll
    (pHandle : MuxerHandle) (outName : CString) (ret : Int) :
    (koalaMuxerInitOpen pHandle (some outName) openAll ret).ret = 0 ∧
    (koalaMuxerInitOpen pHandle (some outName) openAll ret).pHandle.oc ≠ none := by
  cases hacb : pHandle.muxer.acb <;> cases hvcb : pHandle.muxer.vcb <;>
    simp [koalaMuxerInitOpen, openAll, openParts, openAudio, openVideo, openIo, openHeader,
      openDone, OpenState.emit, OpenState.newStream, OpenState.setMuxer, initOpenAudio,
      Except.bind, hacb, hvcb]

theorem koalaMuxerStart_ended
    (pHandle : MuxerHandle) (created : ℕ) :
    (koalaMuxerStart pHandle created).1.ended = pHandle.ended := by
  rw [koalaMuxerStart]
  split <;> rfl

/-- With `end` set the next run submits one packet at most. -/
theorem nextRun_ended
    (lib : LibAv) (hended : h.ended ≠ 0) (outName : Option CString) (a : InitOpenAnswers)
    (ret : Int) (created : ℕ) (env : MuxEnv) (n : ℕ) :
    (nextRun lib h outName a ret created env n).length ≤ 1 := by
  have hkeeps := (initOpen_keeps h outName a ret).muxing
  have hopened : (koalaMuxerInitOpen h outName a ret).pHandle.ended = h.ended :=
    congrArg MuxingState.ended hkeeps
  simp only [nextRun]
  split
  · refine passes_ended ?_
    show (koalaMuxerStart _ created).1.ended ≠ 0
    rw [koalaMuxerStart_ended, hopened]
    exact hended
  · exact Nat.zero_le 1

/-- Without callbacks the next run submits nothing. -/
theorem nextRun_idle
    {outName : Option CString} {a : InitOpenAnswers} {ret : Int} {created : ℕ}
    (hacb : h.muxer.acb = false) (hvcb : h.muxer.vcb = false) :
    nextRun lib h outName a ret created env n = [] := by
  have hkeeps := initOpen_keeps h outName a ret
  have hnone : ∀ stream,
      (koalaMuxerInitOpen h outName a ret).pHandle.muxer.haveStream stream = false := by
    intro stream
    cases stream with
    | video => exact hkeeps.vcb.trans hvcb
    | audio => exact hkeeps.acb.trans hacb
  simp only [nextRun]
  split
  · refine passes_idle fun t ht stream => ?_
    simp only [koalaMuxerStart] at ht
    split at ht
    · rw [Option.mem_some_iff] at ht
      rw [← ht]
      exact hnone stream
    · cases ht
  · rfl

/-- On a fresh handle with a callback every pass of the run submits a packet. -/
theorem nextRun_renewed
    {stream : StreamType} (hhave : h.muxer.haveStream stream = true) (n : ℕ) :
    (nextRun lib h.renewed (some []) openAll 0 1 deliverAll n).length = n := by
  obtain ⟨hret, hoc⟩ := initOpen_openAll h.renewed [] 0
  have hkeeps := initOpen_keeps h.renewed (some []) openAll 0
  have hsame : ∀ st, (koalaMuxerInitOpen h.renewed (some []) openAll 0).pHandle.muxer.haveStream
      st = h.muxer.haveStream st := by
    intro st
    cases st with
    | video => exact hkeeps.vcb
    | audio => exact hkeeps.acb
  have hmux : (koalaMuxerInitOpen h.renewed (some []) openAll 0).pHandle.muxId = 0 :=
    congrArg MuxingState.muxId hkeeps.muxing
  have hstart : koalaMuxerStart (koalaMuxerInitOpen h.renewed (some []) openAll 0).pHandle 1 =
      ({ (koalaMuxerInitOpen h.renewed (some []) openAll 0).pHandle with muxId := 1 },
        some (MuxState.start
          (koalaMuxerInitOpen h.renewed (some []) openAll 0).pHandle.muxer).thread) := by
    rw [koalaMuxerStart, if_pos ⟨hmux, Nat.one_ne_zero⟩]
  rw [nextRun, if_pos hret, hstart]
  refine Busy.passes (t := (MuxState.start
    (koalaMuxerInitOpen h.renewed (some []) openAll 0).pHandle.muxer).thread) ?_ n
  exact
    { thread := rfl
      running := rfl
      encodes := ⟨stream, (hsame stream).trans hhave⟩
      registered := fun _ hencode => hencode
      reqIFrame := congrArg MuxingState.reqIFrame hkeeps.muxing
      ended := congrArg MuxingState.ended hkeeps.muxing
      oc := hoc }

/-- After `koala_muxer_end` the next run is only like the first one on a fresh handle
if neither has a stream. -/
theorem runsAlike_iff
    (hended : h.ended ≠ 0) :
    RunsAlike lib h ↔ h.muxer.acb = false ∧ h.muxer.vcb = false := by
  constructor
  · intro halike
    have hnone : ∀ stream, h.muxer.haveStream stream = false := by
      intro stream
      by_contra hhave
      have hlength := congrArg List.length (halike (some []) openAll 0 1 deliverAll 2)
      rw [nextRun_renewed (Bool.eq_true_of_not_eq_false hhave)] at hlength
      have hone := nextRun_ended lib hended (some []) openAll 0 1 deliverAll 2
      omega
    exact ⟨hnone .audio, hnone .video⟩
  · rintro ⟨hacb, hvcb⟩ outName a ret created env n
    rw [nextRun_idle hacb hvcb, nextRun_idle (h := h.renewed) hacb hvcb]

end NextRun

/--
`koala_muxer_end` undoes no run: `end` stays set and the last timestamps stay, so the
next run stops after one pass, while without a callback there is nothing to submit.
-/
theorem muxer_end_never_undoes
    {lib : LibAv} {tr : List MuxerTransition} {s : MuxerState}
    (run : Run (muxerStep lib) MuxerState.fresh tr s)
    (hend : tr.getLast?.map (·.action) = some .join) :
    ¬RunUndone lib s.pHandle ∧
    s.pHandle.muxing =
      ⟨1, -1, lastWritten .audio (eventsOf tr), lastWritten .video (eventsOf tr), 0, 0⟩ ∧
    encodeInterruptCb s.pHandle = 1 ∧
    (∀ outName a ret created env n,
      (nextRun lib s.pHandle outName a ret created env n).length ≤ 1) ∧
    (RunsAlike lib s.pHandle ↔
      s.pHandle.muxer.acb = false ∧ s.pHandle.muxer.vcb = false) := by
  have hmuxing := run_muxing run hend
  have hended : s.pHandle.ended = 1 := congrArg MuxingState.ended hmuxing
  have hne : s.pHandle.ended ≠ 0 := by rw [hended]; decide
  refine ⟨?_, hmuxing, ?_, nextRun_ended lib hne, runsAlike_iff hne⟩
  · rintro ⟨hsame, -⟩
    exact hne (congrArg MuxingState.ended hsame)
  · rw [encodeInterruptCb, if_pos hended.symm]

/-- A run with audio: one packet is written, the next one after `end` was set. -/
def audioRun : List MuxerAction :=
  [.call (.regDataCallback true false), .call (.initOpen (some []) openAll 0),
    .call (.start 1), .pass (fun _ => ⟨0, timedFrame 40 40 0⟩) 0, .call .setEnd,
    .pass (fun _ => ⟨0, timedFrame 60 60 0⟩) 0, .join]

theorem muxer_end_never_undoes_audio :
    ∃ tr s, Run (muxerStep exactLibAv) MuxerState.fresh tr s ∧
      tr.map (·.action) = audioRun ∧
      s.pHandle.muxing =
        ⟨1, -1, lastWritten .audio (eventsOf tr), lastWritten .video (eventsOf tr), 0, 0⟩ ∧
      ¬RunUndone exactLibAv s.pHandle := by
  have run := Run.of_exec
    (show exec (muxerStep exactLibAv) MuxerState.fresh audioRun = some (_, _) from rfl)
  have h := muxer_end_never_undoes run rfl
  exact ⟨_, _, run, rfl, h.2.1, h.1⟩

/-- The second of two packets is not submitted again. -/
theorem muxer_end_undoes_fails_audio :
    ∃ tr s, Run (muxerStep exactLibAv) MuxerState.fresh tr s ∧
      tr.map (·.action) = audioRun ∧
      s.pHandle.muxing = ⟨1, -1, 20, 0, 0, 0⟩ ∧
      (nextRun exactLibAv s.pHandle (some []) openAll 0 1 deliverAll 2).length = 1 ∧
      (nextRun exactLibAv s.pHandle.renewed (some []) openAll 0 1 deliverAll 2).length = 2 ∧
      ¬RunUndone exactLibAv s.pHandle := by
  have run := Run.of_exec
    (show exec (muxerStep exactLibAv) MuxerState.fresh audioRun = some (_, _) from rfl)
  refine ⟨_, _, run, rfl, by decide, rfl, rfl, fun h => ?_⟩
  exact absurd h.1 (by decide)

end KoalaStreamer
