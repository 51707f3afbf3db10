import KoalaStreamer.Library.EventMachine
import KoalaStreamer.MediaMuxer

/-!
# MediaStreamer.c: the streamer, its client and its prepare thread

The client calls `mediaStreamer_prepare`, `_start`, `_stop`, `_setopt` and
`_release`, one after the other.  `mediaStreamer_prepare` creates the prepare
thread, which runs `mediaStreamer_prepare_internal`: `muxer_open` with its walk
over the options, the registration of the callbacks, `muxer_prepare` down to
`koala_muxer_init_open`, and `mediaStreamer_start`.  `koala_muxer_start` creates
the mux thread.

A step of a thread reads or writes shared data once, or is a section under
`apiMutex` that does not give it up; `koala_muxer_init_open` and the join in
`koala_muxer_end` hold it over several steps.  What the library calls answer is
chosen by the environment; `pthread_create` succeeds, and `pthread_join` of a
thread that was never created returns at once.  Strings are not NULL.
-/

namespace KoalaStreamer

open CStrings EventMachine

/-- `mediastreamer_status`. -/
inductive MediastreamerStatus
  | init
  | preparing
  | prepared
  | streaming
  | stoped
  | error
deriving DecidableEq, Repr

/-- The value of the enumerator. -/
def MediastreamerStatus.value : MediastreamerStatus → ℕ
  | .init => 0
  | .preparing => 1
  | .prepared => 2
  | .streaming => 3
  | .stoped => 4
  | .error => 5

@[simp] theorem MediastreamerStatus.init_lt_iff
    (status : MediastreamerStatus) :
    MediastreamerStatus.init.value < status.value ↔ status ≠ .init := by
  cases status <;> decide

@[simp] theorem MediastreamerStatus.lt_stoped_iff
    (status : MediastreamerStatus) :
    status.value < MediastreamerStatus.stoped.value ↔
      status ≠ .stoped ∧ status ≠ .error := by
  cases status <;> decide

/-- `PREPARE_EVENT_OK` and `PREPARE_EVENT_ERROR`. -/
inductive PrepareEvent
  | ok
  | error
deriving DecidableEq, Repr

/-- A string that `strdup` allocated. -/
abbrev ValueId := ℕ

inductive ClientCall
  | prepare
  | start
  | stop
  | setopt (key value : CString)
  | release
deriving DecidableEq, Repr

/-- The client, between two steps. -/
inductive ClientPc
  | idle
  /-- `mediaStreamer_prepare`, about to set the status. -/
  | prepareStoring
  | prepareCreating
  /-- `muxer_start`, about to test its pointers. -/
  | startGuarding
  /-- About to take `apiMutex` in `koala_muxer_start`. -/
  | startLocking
  /-- `mediaStreamer_stop`, about to read the status again. -/
  | stopTesting
  | stopJoining
  /-- `muxer_end`, about to test its pointers. -/
  | endGuarding
  /-- About to take `apiMutex` in `koala_muxer_end`. -/
  | endLocking
  /-- About to join the mux thread, with `apiMutex`. -/
  | endJoining
  /-- `muxer_close`, about to test its pointers. -/
  | closeGuarding (release : Bool)
  /-- `koala_muxer_close`, about to take `apiMutex`. -/
  | closeLocking (release : Bool)
  /-- About to set `pDelcnt` to NULL. -/
  | closeClearing (release : Bool)
  | stopStoring
  /-- `setOpt`, about to free the old value. -/
  | setoptFreeing (key value : CString)
  /-- `setOpt`, about to store the new value or to link a node. -/
  | setoptWriting (key value : CString)
  /-- `mediaStreamer_release`, about to free what is left. -/
  | releaseFreeing
  | released
deriving DecidableEq, Repr

/-- The prepare thread, between two steps. -/
inductive PreparePc
  | notCreated
  /-- About to compare the status with streaming. -/
  | testing
  /-- `muxer_open`, about to call `probe`. -/
  | probing
  /-- `muxer_open`, about to call `open`. -/
  | opening
  /-- `muxer_open`, about to read `opts`. -/
  | readingOpts
  /-- In the loop of `muxer_open`, with so many nodes left. -/
  | walking (left : ℕ)
  /-- About to take `apiMutex` in `koala_muxer_setopt`. -/
  | applying (left : ℕ) (key : CString) (value : ValueId)
  /-- About to set the listener and the callbacks. -/
  | registering
  /-- `koala_muxer_init_open`, about to take `apiMutex`. -/
  | initLocking
  /-- About to call `avformat_alloc_output_context2`; this and the next three
  positions hold `apiMutex`. -/
  | initAllocating
  /-- About to obtain the source meta data. -/
  | initAdding
  /-- About to read `io_timeout_ms` and to call `avio_open2`. -/
  | initConnecting
  /-- About to call `avformat_write_header`. -/
  | initWriting
  /-- About to call `sendEvent` after a failure. -/
  | initFailing
  /-- `muxer_prepare` has returned. -/
  | statusStoring
  | notifying (event : PrepareEvent)
  /-- `mediaStreamer_start`, about to set the status. -/
  | startStoring
  | startGuarding
  | startLocking
  | exited
deriving DecidableEq, Repr

/-- `mediaStreamer` with its `muxer` and its `koala_muxer`. -/
structure StreamerState where
  status : MediastreamerStatus
  client : ClientPc
  prepare : PreparePc
  /-- `ret` in `mediaStreamer_prepare_internal`. -/
  ret : Int
  mMuxer : Bool
  pDelcnt : Bool
  opts : List (OptNode ValueId)
  /-- The strings that `strdup` allocated. -/
  values : List CString
  /-- The strings given to `free`. -/
  freedValues : List ValueId
  oc : Bool
  /-- `avformat_write_header` has succeeded. -/
  header : Bool
  mux_id : Bool
  /-- `mux_thread` has not returned. -/
  muxRunning : Bool
  ioTimeoutMs : Int

/-- What the environment answers in a step of the prepare thread. -/
structure PrepareAnswer where
  /-- What the library call of the step returns; for `open`, negative is NULL. -/
  ret : Int
  /-- `AVFMT_NOFILE`. -/
  nofile : Bool
  /-- What `atoi` makes of a string that has been freed. -/
  freed : Int
deriving DecidableEq, Repr

inductive StreamerAction
  /-- The client calls a function and takes its first step. -/
  | call (call : ClientCall)
  /-- The client goes on; `allocated` tells whether `malloc` gives a node. -/
  | client (allocated : Bool)
  | prepare (answer : PrepareAnswer)
  /-- `mux_thread` returns. -/
  | muxReturns
deriving DecidableEq, Repr

inductive StreamerEvent
  | called (call : ClientCall)
  | setoptReturned (key value : CString) (ret : Int)
  /-- `pthread_create(&pHandle->prepare_thread, ..)`. -/
  | prepareCreated
  /-- `pthread_join(pHandle->prepare_thread, ..)` has returned. -/
  | prepareJoined
  /-- `pthread_create(&(pHandle->mux_id), ..)`. -/
  | muxCreated
  /-- `mediaStreamer_stop` has set the status to stoped. -/
  | stoped
  | avioOpened (ioTimeoutMs : Int)
  | notified (event : PrepareEvent)
  /-- `mediaStreamer_release` has freed the muxer and the streamer. -/
  | freed
deriving DecidableEq, Repr

/-- A step of the streamer in a run. -/
abbrev StreamerTransition :=
  Transition StreamerState StreamerAction StreamerEvent

namespace StreamerState

/-- `create_mediaStreamer`. -/
def create : StreamerState where
  status := .init
  client := .idle
  prepare := .notCreated
  ret := 0
  mMuxer := false
  pDelcnt := false
  opts := []
  values := []
  freedValues := []
  oc := false
  header := false
  mux_id := false
  muxRunning := false
  ioTimeoutMs := 0

/-- A thread holds `apiMutex`. -/
def apiLocked (s : StreamerState) : Bool :=
  match s.client, s.prepare with
  | .endJoining, _ => true
  | _, .initAllocating => true
  | _, .initAdding => true
  | _, .initConnecting => true
  | _, .initWriting => true
  | _, _ => false

def setClient (s : StreamerState) (pc : ClientPc) : StreamerState :=
  { s with client := pc }

def setPrepare (s : StreamerState) (pc : PreparePc) : StreamerState :=
  { s with prepare := pc }

def setStatus (s : StreamerState) (status : MediastreamerStatus) : StreamerState :=
  { s with status := status }

/-- The nodes of `opts` from the one that has `left - 1` nodes after it. -/
def nodesLeft (s : StreamerState) (left : ℕ) : List (OptNode ValueId) :=
  s.opts.drop (s.opts.length - left)

/-- `atoi` of an allocated string. -/
def atoiValue (s : StreamerState) (value : ValueId) (freed : Int) : Int :=
  if value ∈ s.freedValues then freed else atoi (s.values.getD value [])

/-- `koala_muxer_start`, with `apiMutex`. -/
def koalaMuxerStart (s : StreamerState) : StreamerState × List StreamerEvent :=
  if s.mux_id then (s, [])
  else ({ s with mux_id := true, muxRunning := true }, [.muxCreated])

/-- `KoalaMuxer_open` with the zeroed handle of `koala_get_muxer_handle`. -/
def openHandle (s : StreamerState) : StreamerState :=
  { s with
    pDelcnt := true
    oc := false
    header := false
    mux_id := false
    ioTimeoutMs := 0 }

/-- `koala_muxer_init_open` fails after it has a context. -/
def initFail (s : StreamerState) : StreamerState :=
  { s with oc := false, ret := -1, prepare := .initFailing }

end StreamerState

section Client

/-- The first step of a call. -/
def callStep (s : StreamerState) (call : ClientCall) : StreamerState :=
  match call with
  | .prepare =>
      s.setClient (if s.status = .init then .prepareStoring else .idle)
  | .start => (s.setStatus .streaming).setClient .startGuarding
  | .stop =>
      s.setClient
        (if MediastreamerStatus.init.value < s.status.value then .stopTesting else .idle)
  | .setopt key value =>
      s.setClient
        (if (getOpt s.opts key).isSome then .setoptFreeing key value
          else .setoptWriting key value)
  | .release =>
      s.setClient (if s.pDelcnt then .closeGuarding true else .releaseFreeing)

/-- Where the client goes on after `muxer_close`. -/
def afterClose (release : Bool) : ClientPc :=
  if release then .releaseFreeing else .stopStoring

/-- `free(opt->value)` in `setOpt`. -/
def freeValue (s : StreamerState) (key : CString) : StreamerState :=
  match getOpt s.opts key with
  | none => s
  | some opt => { s with freedValues := opt.value :: s.freedValues }

/-- The last write of `setOpt`; it copies the value unless it fails. -/
def writeOpt
    (s : StreamerState) (key value : CString) (allocated : Bool) :
    Int × StreamerState :=
  let exit := setOpt s.opts key s.values.length allocated
  (exit.1,
    if exit.1 < 0 then s
    else { s with opts := exit.2, values := s.values ++ [value] })

/-- One step of the client inside a call. -/
def clientStep
    (s : StreamerState) (allocated : Bool) :
    Option (StreamerState × List StreamerEvent) :=
  match s.client with
  | .idle => none
  | .prepareStoring =>
      some ((s.setStatus .preparing).setClient .prepareCreating, [])
  | .prepareCreating =>
      some ((s.setPrepare .testing).setClient .idle, [.prepareCreated])
  | .startGuarding =>
      some (s.setClient (if s.mMuxer ∧ s.pDelcnt then .startLocking else .idle), [])
  | .startLocking =>
      if s.apiLocked then none
      else some (s.koalaMuxerStart.1.setClient .idle, s.koalaMuxerStart.2)
  | .stopTesting =>
      some (s.setClient
        (if s.status.value < MediastreamerStatus.stoped.value then .stopJoining
          else .idle), [])
  | .stopJoining =>
      if s.prepare = .notCreated ∨ s.prepare = .exited then
        some (s.setClient .endGuarding, [.prepareJoined])
      else none
  | .endGuarding =>
      some (s.setClient
        (if s.mMuxer ∧ s.pDelcnt then .endLocking else .closeGuarding false), [])
  | .endLocking =>
      if s.apiLocked then none else some (s.setClient .endJoining, [])
  | .endJoining =>
      if s.mux_id ∧ s.muxRunning then none
      else some ({ s with mux_id := false }.setClient (.closeGuarding false), [])
  | .closeGuarding release =>
      some (s.setClient
        (if s.mMuxer ∧ s.pDelcnt then .closeLocking release else afterClose release), [])
  | .closeLocking release =>
      if s.apiLocked then none
      else some ({ s with oc := false }.setClient (.closeClearing release), [])
  | .closeClearing release =>
      some ({ s with pDelcnt := false }.setClient (afterClose release), [])
  | .stopStoring => some ((s.setStatus .stoped).setClient .idle, [.stoped])
  | .setoptFreeing key value =>
      some ((freeValue s key).setClient (.setoptWriting key value), [])
  | .setoptWriting key value =>
      some ((writeOpt s key value allocated).2.setClient .idle,
        [.setoptReturned key value (writeOpt s key value allocated).1])
  | .releaseFreeing => some (s.setClient .released, [.freed])
  | .released => none

end Client

section Prepare

/-- One step of the prepare thread. -/
def prepareStep
    (s : StreamerState) (answer : PrepareAnswer) :
    Option (StreamerState × List StreamerEvent) :=
  match s.prepare with
  | .notCreated => none
  | .testing =>
      some (s.setPrepare (if s.status = .streaming then .exited else .probing), [])
  | .probing =>
      if answer.ret < 0 then
        some ({ s with ret := answer.ret }.setPrepare (.notifying .error), [])
      else some ({ s with mMuxer := true }.setPrepare .opening, [])
  | .opening =>
      if answer.ret < 0 then
        some ({ s with ret := -1, pDelcnt := false }.setPrepare (.notifying .error), [])
      else some (s.openHandle.setPrepare .readingOpts, [])
  | .readingOpts => some (s.setPrepare (.walking s.opts.length), [])
  | .walking left =>
      match s.nodesLeft left with
      | [] => some ({ s with ret := 0 }.setPrepare .registering, [])
      | opt :: opts =>
          some (s.setPrepare (.applying opts.length opt.key opt.value), [])
  | .applying left key value =>
      if s.apiLocked then none
      else if strcasecmp ioTimeoutKey key = 0 then
        some ({ s with ioTimeoutMs := s.atoiValue value answer.freed }.setPrepare
          (.walking left), [])
      else some (s.setPrepare (.walking left), [])
  | .registering => some (s.setPrepare .initLocking, [])
  | .initLocking =>
      if s.apiLocked then none else some (s.setPrepare .initAllocating, [])
  | .initAllocating =>
      if answer.ret < 0 then
        some ({ s with oc := false, ret := -1 }.setPrepare .statusStoring, [])
      else some ({ s with oc := true }.setPrepare .initAdding, [])
  | .initAdding =>
      if answer.ret < 0 then some (s.initFail, [])
      else some (s.setPrepare
        (if answer.nofile then .initWriting else .initConnecting), [])
  | .initConnecting =>
      if answer.ret < 0 then some (s.initFail, [.avioOpened s.ioTimeoutMs])
      else some (s.setPrepare .initWriting, [.avioOpened s.ioTimeoutMs])
  | .initWriting =>
      if answer.ret < 0 then some (s.initFail, [])
      else some ({ s with header := true, ret := 0 }.setPrepare .statusStoring, [])
  | .initFailing => some (s.setPrepare .statusStoring, [])
  | .statusStoring =>
      if 0 ≤ s.ret then some ((s.setStatus .prepared).setPrepare (.notifying .ok), [])
      else some ((s.setStatus .error).setPrepare (.notifying .error), [])
  | .notifying event =>
      some (s.setPrepare (if event = .ok then .startStoring else .exited),
        [.notified event])
  | .startStoring => some ((s.setStatus .streaming).setPrepare .startGuarding, [])
  | .startGuarding =>
      some (s.setPrepare (if s.mMuxer ∧ s.pDelcnt then .startLocking else .exited), [])
  | .startLocking =>
      if s.apiLocked then none
      else some (s.koalaMuxerStart.1.setPrepare .exited, s.koalaMuxerStart.2)
  | .exited => none

end Prepare

/-- The streamer, its client and its threads. -/
def streamerStep : Machine StreamerState StreamerAction StreamerEvent :=
  fun s action =>
    match action with
    | .call call =>
        if s.client = .idle then some (callStep s call, [.called call]) else none
    | .client allocated => clientStep s allocated
    | .prepare answer => prepareStep s answer
    | .muxReturns =>
        if s.muxRunning then some ({ s with muxRunning := false }, []) else none

/-! ## What a step can do -/

section Moves

variable {s t : StreamerState} {es : List StreamerEvent}

/-- `koala_muxer_start` touches the mux thread only. -/
theorem koalaMuxerStart_eq
    (s : StreamerState) :
    ∃ mux_id muxRunning,
      s.koalaMuxerStart.1 = { s with mux_id := mux_id, muxRunning := muxRunning } := by
  unfold StreamerState.koalaMuxerStart
  split <;> exact ⟨_, _, rfl⟩

theorem koalaMuxerStart_events
    (s : StreamerState) :
    ∀ e ∈ s.koalaMuxerStart.2, e = .muxCreated := by
  unfold StreamerState.koalaMuxerStart
  split <;> simp

theorem freeValue_eq
    (s : StreamerState) (key : CString) :
    ∃ freedValues, freeValue s key = { s with freedValues := freedValues } := by
  unfold freeValue
  split <;> exact ⟨_, rfl⟩

theorem writeOpt_eq
    (s : StreamerState) (key value : CString) (allocated : Bool) :
    ∃ opts values,
      (writeOpt s key value allocated).2 =
        { s with opts := opts, values := values } := by
  simp only [writeOpt]
  split <;> exact ⟨_, _, rfl⟩

/-- The steps of the client inside a call. -/
inductive ClientMove (s : StreamerState) (allocated : Bool) :
    StreamerState → List StreamerEvent → Prop
  | storesPreparing
      (h : s.client = .prepareStoring) :
      ClientMove s allocated ((s.setStatus .preparing).setClient .prepareCreating) []
  | creates
      (h : s.client = .prepareCreating) :
      ClientMove s allocated ((s.setPrepare .testing).setClient .idle) [.prepareCreated]
  | passesStart
      (h : s.client = .startGuarding) (hopen : s.mMuxer ∧ s.pDelcnt) :
      ClientMove s allocated (s.setClient .startLocking) []
  | skipsStart
      (h : s.client = .startGuarding) :
      ClientMove s allocated (s.setClient .idle) []
  | startsMux
      (h : s.client = .startLocking) (hfree : s.apiLocked = false) :
      ClientMove s allocated (s.koalaMuxerStart.1.setClient .idle) s.koalaMuxerStart.2
  | passesStop
      (h : s.client = .stopTesting)
      (hlt : s.status.value < MediastreamerStatus.stoped.value) :
      ClientMove s allocated (s.setClient .stopJoining) []
  | skipsStop
      (h : s.client = .stopTesting)
      (hge : ¬s.status.value < MediastreamerStatus.stoped.value) :
      ClientMove s allocated (s.setClient .idle) []
  | joins
      (h : s.client = .stopJoining)
      (hend : s.prepare = .notCreated ∨ s.prepare = .exited) :
      ClientMove s allocated (s.setClient .endGuarding) [.prepareJoined]
  | passesEnd
      (h : s.client = .endGuarding) :
      ClientMove s allocated (s.setClient .endLocking) []
  | skipsEnd
      (h : s.client = .endGuarding) :
      ClientMove s allocated (s.setClient (.closeGuarding false)) []
  | locksEnd
      (h : s.client = .endLocking) :
      ClientMove s allocated (s.setClient .endJoining) []
  | endsMux
      (h : s.client = .endJoining) :
      ClientMove s allocated ({ s with mux_id := false }.setClient (.closeGuarding false)) []
  | passesClose (release : Bool)
      (h : s.client = .closeGuarding release) :
      ClientMove s allocated (s.setClient (.closeLocking release)) []
  | skipsClose (release : Bool)
      (h : s.client = .closeGuarding release) :
      ClientMove s allocated (s.setClient (afterClose release)) []
  | closes (release : Bool)
      (h : s.client = .closeLocking release) :
      ClientMove s allocated ({ s with oc := false }.setClient (.closeClearing release)) []
  | clears (release : Bool)
      (h : s.client = .closeClearing release) :
      ClientMove s allocated ({ s with pDelcnt := false }.setClient (afterClose release)) []
  | storesStoped
      (h : s.client = .stopStoring) :
      ClientMove s allocated ((s.setStatus .stoped).setClient .idle) [.stoped]
  | freesValue (key value : CString)
      (h : s.client = .setoptFreeing key value) :
      ClientMove s allocated ((freeValue s key).setClient (.setoptWriting key value)) []
  | writesOpt (key value : CString)
      (h : s.client = .setoptWriting key value) :
      ClientMove s allocated ((writeOpt s key value allocated).2.setClient .idle)
        [.setoptReturned key value (writeOpt s key value allocated).1]
  | frees
      (h : s.client = .releaseFreeing) :
      ClientMove s allocated (s.setClient .released) [.freed]

theorem clientStep_move
    {allocated : Bool}
    (h : clientStep s allocated = some (t, es)) :
    ClientMove s allocated t es := by
  cases hpc : s.client <;>
    simp only [clientStep, hpc, Option.ite_none_left_eq_some, Option.ite_none_right_eq_some,
      Option.some.injEq, Prod.mk.injEq, reduceCtorEq] at h
  case prepareStoring =>
    obtain ⟨rfl, rfl⟩ := h
    exact .storesPreparing hpc
  case prepareCreating =>
    obtain ⟨rfl, rfl⟩ := h
    exact .creates hpc
  case startGuarding =>
    obtain ⟨rfl, rfl⟩ := h
    split
    · exact .passesStart hpc ‹_›
    · exact .skipsStart hpc
  case startLocking =>
    obtain ⟨hfree, rfl, rfl⟩ := h
    exact .startsMux hpc (Bool.not_eq_true _ ▸ hfree)
  case stopTesting =>
    obtain ⟨rfl, rfl⟩ := h
    split
    · exact .passesStop hpc ‹_›
    · exact .skipsStop hpc ‹_›
  case stopJoining =>
    obtain ⟨hend, rfl, rfl⟩ := h
    exact .joins hpc hend
  case endGuarding =>
    obtain ⟨rfl, rfl⟩ := h
    split
    · exact .passesEnd hpc
    · exact .skipsEnd hpc
  case endLocking =>
    obtain ⟨-, rfl, rfl⟩ := h
    exact .locksEnd hpc
  case endJoining =>
    obtain ⟨-, rfl, rfl⟩ := h
    exact .endsMux hpc
  case closeGuarding release =>
    obtain ⟨rfl, rfl⟩ := h
    split
    · exact .passesClose release hpc
    · exact .skipsClose release hpc
  case closeLocking release =>
    obtain ⟨-, rfl, rfl⟩ := h
    exact .closes release hpc
  case closeClearing release =>
    obtain ⟨rfl, rfl⟩ := h
    exact .clears release hpc
  case stopStoring =>
    obtain ⟨rfl, rfl⟩ := h
    exact .storesStoped hpc
  case setoptFreeing key value =>
    obtain ⟨rfl, rfl⟩ := h
    exact .freesValue key value hpc
  case setoptWriting key value =>
    obtain ⟨rfl, rfl⟩ := h
    exact .writesOpt key value hpc
  case releaseFreeing =>
    obtain ⟨rfl, rfl⟩ := h
    exact .frees hpc

/-- The steps of the prepare thread. -/
inductive PrepareMove (s : StreamerState) :
    StreamerState → List StreamerEvent → Prop
  | returnsEarly
      (h : s.prepare = .testing) :
      PrepareMove s (s.setPrepare .exited) []
  | tests
      (h : s.prepare = .testing) :
      PrepareMove s (s.setPrepare .probing) []
  | probeFails (ret : Int)
      (h : s.prepare = .probing) (hret : ret < 0) :
      PrepareMove s ({ s with ret := ret }.setPrepare (.notifying .error)) []
  | probes
      (h : s.prepare = .probing) :
      PrepareMove s ({ s with mMuxer := true }.setPrepare .opening) []
  | openFails
      (h : s.prepare = .opening) :
      PrepareMove s
        ({ s with ret := -1, pDelcnt := false }.setPrepare (.notifying .error)) []
  | opens
      (h : s.prepare = .opening) :
      PrepareMove s (s.openHandle.setPrepare .readingOpts) []
  | readsOpts
      (h : s.prepare = .readingOpts) :
      PrepareMove s (s.setPrepare (.walking s.opts.length)) []
  | endsWalk (left : ℕ)
      (h : s.prepare = .walking left) (hleft : s.nodesLeft left = []) :
      PrepareMove s ({ s with ret := 0 }.setPrepare .registering) []
  | walks (left : ℕ) (opt : OptNode ValueId) (opts : List (OptNode ValueId))
      (h : s.prepare = .walking left) (hleft : s.nodesLeft left = opt :: opts) :
      PrepareMove s (s.setPrepare (.applying opts.length opt.key opt.value)) []
  | appliesTimeout (left : ℕ) (key : CString) (value : ValueId) (freed : Int)
      (h : s.prepare = .applying left key value)
      (hkey : strcasecmp ioTimeoutKey key = 0) :
      PrepareMove s
        ({ s with ioTimeoutMs := s.atoiValue value freed }.setPrepare (.walking left)) []
  | appliesOther (left : ℕ) (key : CString) (value : ValueId)
      (h : s.prepare = .applying left key value)
      (hkey : strcasecmp ioTimeoutKey key ≠ 0) :
      PrepareMove s (s.setPrepare (.walking left)) []
  | registers
      (h : s.prepare = .registering) :
      PrepareMove s (s.setPrepare .initLocking) []
  | locksInit
      (h : s.prepare = .initLocking) :
      PrepareMove s (s.setPrepare .initAllocating) []
  | allocateFails
      (h : s.prepare = .initAllocating) :
      PrepareMove s ({ s with oc := false, ret := -1 }.setPrepare .statusStoring) []
  | allocates
      (h : s.prepare = .initAllocating) :
      PrepareMove s ({ s with oc := true }.setPrepare .initAdding) []
  | addFails
      (h : s.prepare = .initAdding) :
      PrepareMove s s.initFail []
  | adds (nofile : Bool)
      (h : s.prepare = .initAdding) :
      PrepareMove s
        (s.setPrepare (if nofile then .initWriting else .initConnecting)) []
  | connectFails
      (h : s.prepare = .initConnecting) :
      PrepareMove s s.initFail [.avioOpened s.ioTimeoutMs]
  | connects
      (h : s.prepare = .initConnecting) :
      PrepareMove s (s.setPrepare .initWriting) [.avioOpened s.ioTimeoutMs]
  | headerFails
      (h : s.prepare = .initWriting) :
      PrepareMove s s.initFail []
  | writesHeader
      (h : s.prepare = .initWriting) :
      PrepareMove s ({ s with header := true, ret := 0 }.setPrepare .statusStoring) []
  | sendsEvent
      (h : s.prepare = .initFailing) :
      PrepareMove s (s.setPrepare .statusStoring) []
  | storesPrepared
      (h : s.prepare = .statusStoring) (hret : 0 ≤ s.ret) :
      PrepareMove s ((s.setStatus .prepared).setPrepare (.notifying .ok)) []
  | storesError
      (h : s.prepare = .statusStoring) (hret : s.ret < 0) :
      PrepareMove s ((s.setStatus .error).setPrepare (.notifying .error)) []
  | notifies (event : PrepareEvent)
      (h : s.prepare = .notifying event) :
      PrepareMove s (s.setPrepare (if event = .ok then .startStoring else .exited))
        [.notified event]
  | storesStreaming
      (h : s.prepare = .startStoring) :
      PrepareMove s ((s.setStatus .streaming).setPrepare .startGuarding) []
  | passesStart
      (h : s.prepare = .startGuarding) (hopen : s.mMuxer ∧ s.pDelcnt) :
      PrepareMove s (s.setPrepare .startLocking) []
  | skipsStart
      (h : s.prepare = .startGuarding) :
      PrepareMove s (s.setPrepare .exited) []
  | startsMux
      (h : s.prepare = .startLocking) :
      PrepareMove s (s.koalaMuxerStart.1.setPrepare .exited) s.koalaMuxerStart.2

theorem prepareStep_move
    {answer : PrepareAnswer}
    (h : prepareStep s answer = some (t, es)) :
    PrepareMove s t es := by
  cases hpc : s.prepare <;>
    simp only [prepareStep, hpc, Option.ite_none_left_eq_some, Option.some.injEq,
      Prod.mk.injEq, reduceCtorEq] at h
  case testing =>
    obtain ⟨rfl, rfl⟩ := h
    split
    · exact .returnsEarly hpc
    · exact .tests hpc
  case probing =>
    split at h <;> obtain ⟨rfl, rfl⟩ := Prod.mk.inj (Option.some.inj h)
    · exact .probeFails answer.ret hpc ‹_›
    · exact .probes hpc
  case opening =>
    split at h <;> obtain ⟨rfl, rfl⟩ := Prod.mk.inj (Option.some.inj h)
    · exact .openFails hpc
    · exact .opens hpc
  case readingOpts =>
    obtain ⟨rfl, rfl⟩ := h
    exact .readsOpts hpc
  case walking left =>
    split at h <;> obtain ⟨rfl, rfl⟩ := Prod.mk.inj (Option.some.inj h)
    · exact .endsWalk left hpc ‹_›
    · exact .walks left _ _ hpc ‹_›
  case applying left key value =>
    obtain ⟨-, h⟩ := h
    split at h <;> obtain ⟨rfl, rfl⟩ := Prod.mk.inj (Option.some.inj h)
    · exact .appliesTimeout left key value answer.freed hpc ‹_›
    · exact .appliesOther left key value hpc ‹_›
  case registering =>
    obtain ⟨rfl, rfl⟩ := h
    exact .registers hpc
  case initLocking =>
    obtain ⟨-, rfl, rfl⟩ := h
    exact .locksInit hpc
  case initAllocating =>
    split at h <;> obtain ⟨rfl, rfl⟩ := Prod.mk.inj (Option.some.inj h)
    · exact .allocateFails hpc
    · exact .allocates hpc
  case initAdding =>
    split at h <;> obtain ⟨rfl, rfl⟩ := Prod.mk.inj (Option.some.inj h)
    · exact .addFails hpc
    · exact .adds answer.nofile hpc
  case initConnecting =>
    split at h <;> obtain ⟨rfl, rfl⟩ := Prod.mk.inj (Option.some.inj h)
    · exact .connectFails hpc
    · exact .connects hpc
  case initWriting =>
    split at h <;> obtain ⟨rfl, rfl⟩ := Prod.mk.inj (Option.some.inj h)
    · exact .headerFails hpc
    · exact .writesHeader hpc
  case initFailing =>
    obtain ⟨rfl, rfl⟩ := h
    exact .sendsEvent hpc
  case statusStoring =>
    split at h <;> obtain ⟨rfl, rfl⟩ := Prod.mk.inj (Option.some.inj h)
    · exact .storesPrepared hpc ‹_›
    · exact .storesError hpc (Int.not_le.mp ‹_›)
  case notifying event =>
    obtain ⟨rfl, rfl⟩ := h
    exact .notifies event hpc
  case startStoring =>
    obtain ⟨rfl, rfl⟩ := h
    exact .storesStreaming hpc
  case startGuarding =>
    obtain ⟨rfl, rfl⟩ := h
    split
    · exact .passesStart hpc ‹_›
    · exact .skipsStart hpc
  case startLocking =>
    obtain ⟨-, rfl, rfl⟩ := h
    exact .startsMux hpc

/-- The steps of the streamer. -/
inductive StreamerMove (s : StreamerState) :
    StreamerAction → StreamerState → List StreamerEvent → Prop
  | calls (call : ClientCall) (h : s.client = .idle) :
      StreamerMove s (.call call) (callStep s call) [.called call]
  | client {t : StreamerState} {es : List StreamerEvent} (allocated : Bool)
      (move : ClientMove s allocated t es) :
      StreamerMove s (.client allocated) t es
  | prepare {t : StreamerState} {es : List StreamerEvent} (answer : PrepareAnswer)
      (move : PrepareMove s t es) :
      StreamerMove s (.prepare answer) t es
  | muxReturns :
      StreamerMove s .muxReturns { s with muxRunning := false } []

theorem streamerStep_move
    {action : StreamerAction}
    (h : streamerStep s action = some (t, es)) :
    StreamerMove s action t es := by
  cases action with
  | call call =>
      simp only [streamerStep, Option.ite_none_right_eq_some, Option.some.injEq,
        Prod.mk.injEq] at h
      obtain ⟨hidle, rfl, rfl⟩ := h
      exact .calls call hidle
  | client allocated =>
      exact .client allocated (clientStep_move h)
  | prepare answer =>
      exact .prepare answer (prepareStep_move h)
  | muxReturns =>
      simp only [streamerStep, Option.ite_none_right_eq_some, Option.some.injEq,
        Prod.mk.injEq] at h
      obtain ⟨-, rfl, rfl⟩ := h
      exact .muxReturns

end Moves

end KoalaStreamer
