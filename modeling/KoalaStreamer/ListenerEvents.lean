import KoalaStreamer.Library.EventMachine
import KoalaStreamer.Library.MutexSection
import KoalaStreamer.Library.RunRules
import Mathlib.Data.Fintype.Basic

/-!
# MediaStreamer.c, koala_muxer.c: the listeners

The user registers a listener and its argument with `mediaStreamer_setListener`.  Events
reach it on two ways: `sendEvent` of the muxer calls `mediastreamer_muxerListener`, which
calls the listener, and `Notify` of the prepare thread calls it directly.  Listener and
argument are two fields; `mediaStreamer_setListener` writes them, and
`mediastreamer_muxerListener` reads them, with `listenerMutex` held, and the muxer has a
`listenerMutex` of its own, which is held around the call.  `Notify` takes no mutex.

Any number of threads make these calls, and a step is one access to a field, one lock or
unlock, or the beginning or end of a call of the listener.  The listener itself does not
call back.

Main results:
* `listener_called_as_registered`: the muxer calls what was registered last, with its
  argument, and nothing is registered during the call; so does `Notify`, when nobody
  registers during it;
* `listener_calls_return`: no call waits for ever for one of the two mutexes.
-/

namespace KoalaStreamer

open EventMachine MutexSection

/-- The `listenerMutex` of the two handles. -/
inductive ListenerMutex
  | muxer
  | streamer
deriving DecidableEq, Repr

/-- A call that concerns the listener. -/
inductive ListenerCall (L A : Type)
  /-- `mediaStreamer_setListener`. -/
  | setListener (listener : Option L) (arg : Option A)
  /-- `koala_muxer_set_listener` with `mediastreamer_muxerListener` and the streamer. -/
  | muxerSetListener
  | sendEvent (event : Int)
  /-- `Notify`. -/
  | notify (event : Int)

/-- A thread between two steps of its call. -/
inductive ListenerPc (L A : Type)
  | idle
  | setLocking (listener : Option L) (arg : Option A)
  | setStoring (listener : Option L) (arg : Option A)
  | setStoringArg (listener : Option L) (arg : Option A)
  | setUnlocking (listener : Option L) (arg : Option A)
  | muxerSetLocking
  | muxerSetStoring
  | muxerSetStoringArg
  | muxerSetUnlocking
  /-- `sendEvent`, about to lock. -/
  | sendLocking (event : Int)
  | sendTesting (event : Int)
  /-- About to call `mediastreamer_muxerListener`, which looks at its argument. -/
  | sendCalling (event : Int)
  /-- `mediastreamer_muxerListener`, about to lock. -/
  | forwardLocking (event : Int)
  | forwardTesting (event : Int)
  | forwardReading (event : Int)
  | forwardReadingArg (event : Int) (listener : Option L)
  | forwardCalling (event : Int) (listener : Option L) (arg : Option A)
  /-- In the listener. -/
  | forwardReturning
  | forwardUnlocking
  | sendUnlocking
  | notifyTesting (event : Int)
  | notifyReading (event : Int)
  | notifyReadingArg (event : Int) (listener : Option L)
  | notifyCalling (event : Int) (listener : Option L) (arg : Option A)
  /-- In the listener. -/
  | notifyReturning
deriving DecidableEq, Repr

/-- The fields of the two handles, their mutexes and the threads. -/
structure ListenerState (ι L A : Type) where
  listener : Option L
  listenerArg : Option A
  /-- Whether `listener` of the muxer is set. -/
  muxerListener : Bool
  muxerListenerArg : Bool
  owner : ListenerMutex → Option ι
  pc : ι → ListenerPc L A

inductive ListenerAction (ι L A : Type)
  | call (t : ι) (call : ListenerCall L A)
  | step (t : ι)

inductive ListenerEvent (ι L A : Type)
  /-- `mediaStreamer_setListener` has unlocked. -/
  | registered (listener : Option L) (arg : Option A)
  /-- `mediastreamer_muxerListener` calls the listener. -/
  | called (t : ι) (listener : Option L) (arg : Option A) (event : Int)
  | returned (t : ι)
  /-- `Notify` calls the listener. -/
  | notified (t : ι) (listener : Option L) (arg : Option A) (event : Int)
deriving DecidableEq

section Step

variable {ι L A : Type} [DecidableEq ι]

/-- A step of one thread in a run. -/
abbrev ListenerTransition (ι L A : Type) :=
  Transition (ListenerState ι L A) (ListenerAction ι L A) (ListenerEvent ι L A)

namespace ListenerState

/-- `create_mediaStreamer` and `koala_get_muxer_handle`, of the listener fields. -/
def create : ListenerState ι L A where
  listener := none
  listenerArg := none
  muxerListener := false
  muxerListenerArg := false
  owner := fun _ => none
  pc := fun _ => .idle

def move (s : ListenerState ι L A) (t : ι) (pc : ListenerPc L A) : ListenerState ι L A :=
  { s with pc := Function.update s.pc t pc }

/-- `pthread_mutex_lock`. -/
def lock (s : ListenerState ι L A) (m : ListenerMutex) (t : ι) (pc : ListenerPc L A) :
    Option (ListenerState ι L A × List (ListenerEvent ι L A)) :=
  match s.owner m with
  | some _ => none
  | none => some ({ s with owner := Function.update s.owner m (some t) }.move t pc, [])

/-- `pthread_mutex_unlock`. -/
def unlock (s : ListenerState ι L A) (m : ListenerMutex) (t : ι) (pc : ListenerPc L A) :
    ListenerState ι L A :=
  { s with owner := Function.update s.owner m none }.move t pc

end ListenerState

/-- Where a call begins. -/
def ListenerCall.entry : ListenerCall L A → ListenerPc L A
  | .setListener listener arg => .setLocking listener arg
  | .muxerSetListener => .muxerSetLocking
  | .sendEvent event => .sendLocking event
  | .notify event => .notifyTesting event

/-- One step of a thread in its call. -/
def listenerThreadStep
    (s : ListenerState ι L A) (t : ι) :
    Option (ListenerState ι L A × List (ListenerEvent ι L A)) :=
  match s.pc t with
  | .idle => none
  | .setLocking listener arg => s.lock .streamer t (.setStoring listener arg)
  | .setStoring listener arg =>
      some ({ s with listener := listener }.move t (.setStoringArg listener arg), [])
  | .setStoringArg listener arg =>
      some ({ s with listenerArg := arg }.move t (.setUnlocking listener arg), [])
  | .setUnlocking listener arg =>
      some (s.unlock .streamer t .idle, [.registered listener arg])
  | .muxerSetLocking => s.lock .muxer t .muxerSetStoring
  | .muxerSetStoring =>
      some ({ s with muxerListener := true }.move t .muxerSetStoringArg, [])
  | .muxerSetStoringArg =>
      some ({ s with muxerListenerArg := true }.move t .muxerSetUnlocking, [])
  | .muxerSetUnlocking => some (s.unlock .muxer t .idle, [])
  | .sendLocking event => s.lock .muxer t (.sendTesting event)
  | .sendTesting event =>
      some (s.move t (if s.muxerListener then .sendCalling event else .sendUnlocking), [])
  | .sendCalling event =>
      some (s.move t
        (if s.muxerListenerArg then .forwardLocking event else .sendUnlocking), [])
  | .forwardLocking event => s.lock .streamer t (.forwardTesting event)
  | .forwardTesting event =>
      some (s.move t
        (if s.listener.isSome then .forwardReading event else .forwardUnlocking), [])
  | .forwardReading event => some (s.move t (.forwardReadingArg event s.listener), [])
  | .forwardReadingArg event listener =>
      some (s.move t (.forwardCalling event listener s.listenerArg), [])
  | .forwardCalling event listener arg =>
      some (s.move t .forwardReturning, [.called t listener arg event])
  | .forwardReturning => some (s.move t .forwardUnlocking, [.returned t])
  | .forwardUnlocking => some (s.unlock .streamer t .sendUnlocking, [])
  | .sendUnlocking => some (s.unlock .muxer t .idle, [])
  | .notifyTesting event =>
      some (s.move t (if s.listener.isSome then .notifyReading event else .idle), [])
  | .notifyReading event => some (s.move t (.notifyReadingArg event s.listener), [])
  | .notifyReadingArg event listener =>
      some (s.move t (.notifyCalling event listener s.listenerArg), [])
  | .notifyCalling event listener arg =>
      some (s.move t .notifyReturning, [.notified t listener arg event])
  | .notifyReturning => some (s.move t .idle, [.returned t])

/-- The threads and the two handles. -/
def listenerStep :
    Machine (ListenerState ι L A) (ListenerAction ι L A) (ListenerEvent ι L A) :=
  fun s a =>
    match a with
    | .call t call =>
        match s.pc t with
        | .idle => some (s.move t call.entry, [])
        | _ => none
    | .step t => listenerThreadStep s t

end Step

/-! ## The mutexes -/

section Mutexes

variable {ι L A : Type} [DecidableEq ι] {s s' : ListenerState ι L A}
  {es : List (ListenerEvent ι L A)} {t : ι} {a : ListenerAction ι L A}

/-- The mutexes that a thread holds. -/
def ListenerPc.holds : ListenerPc L A → ListenerMutex → Bool
  | .setStoring _ _, m => m = .streamer
  | .setStoringArg _ _, m => m = .streamer
  | .setUnlocking _ _, m => m = .streamer
  | .muxerSetStoring, m => m = .muxer
  | .muxerSetStoringArg, m => m = .muxer
  | .muxerSetUnlocking, m => m = .muxer
  | .sendTesting _, m => m = .muxer
  | .sendCalling _, m => m = .muxer
  | .forwardLocking _, m => m = .muxer
  | .forwardTesting _, _ => true
  | .forwardReading _, _ => true
  | .forwardReadingArg _ _, _ => true
  | .forwardCalling _ _ _, _ => true
  | .forwardReturning, _ => true
  | .forwardUnlocking, _ => true
  | .sendUnlocking, m => m = .muxer
  | _, _ => false

/-- The mutex that a thread is about to lock. -/
def ListenerPc.needs : ListenerPc L A → Option ListenerMutex
  | .setLocking _ _ => some .streamer
  | .muxerSetLocking => some .muxer
  | .sendLocking _ => some .muxer
  | .forwardLocking _ => some .streamer
  | _ => none

/-- Each mutex is held by the thread that has locked it. -/
def MutexInv (s : ListenerState ι L A) : Prop :=
  ∀ m, Guards (fun pc : ListenerPc L A => pc.holds m = true) (s.owner m) s.pc

theorem MutexInv.move
    {pc : ListenerPc L A} (h : MutexInv s) (hholds : ∀ m, pc.holds m = (s.pc t).holds m) :
    MutexInv (s.move t pc) :=
  fun m => (h m).moves (by rw [hholds])

theorem MutexInv.lock
    {pc : ListenerPc L A} {m : ListenerMutex} (h : MutexInv s)
    (hholds : ∀ m', pc.holds m' = (m' = m || (s.pc t).holds m'))
    (hlock : s.lock m t pc = some (s', es)) : MutexInv s' := by
  rw [ListenerState.lock] at hlock
  split at hlock
  · cases hlock
  · rename_i hfree
    obtain ⟨rfl, -⟩ := Prod.mk.inj (Option.some.inj hlock)
    intro m'
    by_cases hm : m' = m
    · subst hm
      have hguards := h m'
      rw [hfree] at hguards
      show Guards _ (Function.update s.owner m' (some t) m') (Function.update s.pc t pc)
      rw [Function.update_self]
      exact hguards.acquire (by simp [hholds])
    · show Guards _ (Function.update s.owner m (some t) m') (Function.update s.pc t pc)
      rw [Function.update_of_ne hm]
      exact (h m').moves (by simp [hholds, hm])

theorem MutexInv.unlock
    {pc : ListenerPc L A} {m : ListenerMutex} (h : MutexInv s)
    (hheld : (s.pc t).holds m = true)
    (hholds : ∀ m', pc.holds m' = (m' ≠ m && (s.pc t).holds m')) :
    MutexInv (s.unlock m t pc) := by
  intro m'
  by_cases hm : m' = m
  · subst hm
    show Guards _ (Function.update s.owner m' none m') (Function.update s.pc t pc)
    rw [Function.update_self]
    exact (h m').release hheld (by simp [hholds])
  · show Guards _ (Function.update s.owner m none m') (Function.update s.pc t pc)
    rw [Function.update_of_ne hm]
    exact (h m').moves (by simp [hholds, hm])

theorem listenerThreadStep_mutexInv
    (h : MutexInv s) (hstep : listenerThreadStep s t = some (s', es)) : MutexInv s' := by
  have hmove : ∀ {mid : ListenerState ι L A} {pc : ListenerPc L A}
      {es' : List (ListenerEvent ι L A)}, mid.owner = s.owner → mid.pc = s.pc →
      (∀ m, pc.holds m = (s.pc t).holds m) →
      some (mid.move t pc, es') = some (s', es) → MutexInv s' := by
    intro mid pc es' howner hpc hholds heq
    obtain ⟨rfl, -⟩ := Prod.mk.inj (Option.some.inj heq)
    refine MutexInv.move (fun m => ?_) (by rw [hpc]; exact hholds)
    rw [howner, hpc]
    exact h m
  have hunlock : ∀ {m : ListenerMutex} {pc : ListenerPc L A}
      {es' : List (ListenerEvent ι L A)}, (s.pc t).holds m = true →
      (∀ m', pc.holds m' = (m' ≠ m && (s.pc t).holds m')) →
      some (s.unlock m t pc, es') = some (s', es) → MutexInv s' := by
    intro m pc es' hheld hholds heq
    obtain ⟨rfl, -⟩ := Prod.mk.inj (Option.some.inj heq)
    exact h.unlock hheld hholds
  cases hpc : s.pc t with
  | idle =>
      rw [listenerThreadStep, hpc] at hstep
      cases hstep
  | setLocking listener arg =>
      rw [listenerThreadStep, hpc] at hstep
      exact h.lock (by simp [hpc, ListenerPc.holds]) hstep
  | muxerSetLocking =>
      rw [listenerThreadStep, hpc] at hstep
      exact h.lock (by simp [hpc, ListenerPc.holds]) hstep
  | sendLocking event =>
      rw [listenerThreadStep, hpc] at hstep
      exact h.lock (by simp [hpc, ListenerPc.holds]) hstep
  | forwardLocking event =>
      rw [listenerThreadStep, hpc] at hstep
      exact h.lock (by intro m; cases m <;> simp [hpc, ListenerPc.holds]) hstep
  | setUnlocking listener arg =>
      rw [listenerThreadStep, hpc] at hstep
      exact hunlock (by rw [hpc]; rfl) (by simp [hpc, ListenerPc.holds]) hstep
  | muxerSetUnlocking =>
      rw [listenerThreadStep, hpc] at hstep
      exact hunlock (by rw [hpc]; rfl) (by simp [hpc, ListenerPc.holds]) hstep
  | forwardUnlocking =>
      rw [listenerThreadStep, hpc] at hstep
      refine hunlock (by rw [hpc]; rfl) ?_ hstep
      intro m
      cases m <;> simp [hpc, ListenerPc.holds]
  | sendUnlocking =>
      rw [listenerThreadStep, hpc] at hstep
      exact hunlock (by rw [hpc]; rfl) (by simp [hpc, ListenerPc.holds]) hstep
  | sendTesting event =>
      rw [listenerThreadStep, hpc] at hstep
      refine hmove rfl rfl ?_ hstep
      intro m
      split <;> simp [hpc, ListenerPc.holds]
  | sendCalling event =>
      rw [listenerThreadStep, hpc] at hstep
      refine hmove rfl rfl ?_ hstep
      intro m
      split <;> simp [hpc, ListenerPc.holds]
  | forwardTesting event =>
      rw [listenerThreadStep, hpc] at hstep
      refine hmove rfl rfl ?_ hstep
      intro m
      split <;> simp [hpc, ListenerPc.holds]
  | notifyTesting event =>
      rw [listenerThreadStep, hpc] at hstep
      refine hmove rfl rfl ?_ hstep
      intro m
      split <;> simp [hpc, ListenerPc.holds]
  | _ =>
      simp only [listenerThreadStep, hpc] at hstep
      refine @hmove _ _ _ ?_ ?_ ?_ hstep
      · rfl
      · rfl
      · simp [hpc, ListenerPc.holds]

/-- A call begins without a mutex. -/
theorem ListenerCall.entry_holds
    (call : ListenerCall L A) (m : ListenerMutex) : call.entry.holds m = false := by
  cases call <;> rfl

theorem listenerStep_mutexInv
    (h : MutexInv s) (hstep : listenerStep s a = some (s', es)) : MutexInv s' := by
  cases a with
  | call t call =>
      simp only [listenerStep] at hstep
      split at hstep
      · rename_i hidle
        obtain ⟨rfl, -⟩ := Prod.mk.inj (Option.some.inj hstep)
        refine h.move fun m => ?_
        rw [hidle, call.entry_holds]
        rfl
      · cases hstep
  | step t =>
      exact listenerThreadStep_mutexInv h hstep

end Mutexes

/-! ## Listener and argument -/

section Pair

variable {ι L A : Type} {s s' : ListenerState ι L A}
  {es es₀ : List (ListenerEvent ι L A)} {t t' : ι} {a : ListenerAction ι L A}

/-- What was registered last. -/
def registered (es : List (ListenerEvent ι L A)) : Option L × Option A :=
  es.foldl (fun last e =>
    match e with
    | .registered listener arg => (listener, arg)
    | _ => last) (none, none)

/-- `mediaStreamer_setListener`, between its first access to the fields and its unlock. -/
def ListenerPc.storing : ListenerPc L A → Bool
  | .setStoringArg _ _ => true
  | .setUnlocking _ _ => true
  | _ => false

/-- In `mediaStreamer_setListener`. -/
def ListenerPc.setting : ListenerPc L A → Bool
  | .setLocking _ _ => true
  | .setStoring _ _ => true
  | .setStoringArg _ _ => true
  | .setUnlocking _ _ => true
  | _ => false

/-- In `Notify`. -/
def ListenerPc.notifying : ListenerPc L A → Bool
  | .notifyTesting _ => true
  | .notifyReading _ => true
  | .notifyReadingArg _ _ => true
  | .notifyCalling _ _ _ => true
  | .notifyReturning => true
  | _ => false

theorem ListenerPc.setting_of_storing
    {pc : ListenerPc L A} (h : pc.storing = true) : pc.setting = true := by
  cases pc <;> simp_all [ListenerPc.storing, ListenerPc.setting]

/-- What a thread has stored, or seen with the mutex, is what the fields hold. -/
def ListenerPc.Sees (listener : Option L) (arg : Option A) : ListenerPc L A → Prop
  | .setStoringArg listener' _ => listener' = listener
  | .setUnlocking listener' arg' => listener' = listener ∧ arg' = arg
  | .forwardReading _ => listener ≠ none
  | .forwardReadingArg _ listener' => listener ≠ none ∧ listener' = listener
  | .forwardCalling _ listener' arg' => listener ≠ none ∧ listener' = listener ∧ arg' = arg
  | _ => True

/-- What `Notify` has seen is what the fields hold. -/
def ListenerPc.NotifySees (listener : Option L) (arg : Option A) : ListenerPc L A → Prop
  | .notifyReading _ => listener ≠ none
  | .notifyReadingArg _ listener' => listener ≠ none ∧ listener' = listener
  | .notifyCalling _ listener' arg' => listener ≠ none ∧ listener' = listener ∧ arg' = arg
  | _ => True

/-- What a thread stores or sees, it stores or sees with the mutex. -/
theorem ListenerPc.sees_of_not_holds
    {pc : ListenerPc L A} (listener : Option L) (arg : Option A)
    (hholds : pc.holds .streamer = false) : pc.Sees listener arg := by
  cases pc <;> simp_all [ListenerPc.Sees, ListenerPc.holds]

theorem ListenerPc.notifySees_of_not
    {pc : ListenerPc L A} (listener : Option L) (arg : Option A)
    (hnotify : pc.notifying = false) : pc.NotifySees listener arg := by
  cases pc <;> simp_all [ListenerPc.NotifySees, ListenerPc.notifying]

theorem ListenerPc.holds_of_storing
    {pc : ListenerPc L A} (h : pc.storing = true) : pc.holds .streamer = true := by
  cases pc <;> simp_all [ListenerPc.storing, ListenerPc.holds]

/-- The place of the thread that shows an event. -/
def ListenerEvent.ShownAt (t : ι) (pc : ListenerPc L A) : ListenerEvent ι L A → Prop
  | .registered listener arg => pc = .setUnlocking listener arg
  | .called t' listener arg event => t' = t ∧ pc = .forwardCalling event listener arg
  | .returned t' => t' = t
  | .notified t' listener arg event => t' = t ∧ pc = .notifyCalling event listener arg

/-- What one step of a thread does to the fields, and what it shows. -/
structure ListenerEffect
    (s : ListenerState ι L A) (t : ι) (s' : ListenerState ι L A)
    (es : List (ListenerEvent ι L A)) : Prop where
  others : ∀ t', t' ≠ t → s'.pc t' = s.pc t'
  /-- Only `mediaStreamer_setListener` writes the fields, with the mutex. -/
  fields :
    (s'.listener = s.listener ∧ s'.listenerArg = s.listenerArg) ∨
    ((s.pc t).holds .streamer = true ∧ (s.pc t).setting = true ∧ (s'.pc t).storing = true)
  stores : (s.pc t).storing = true →
    (∃ listener arg, s.pc t = .setUnlocking listener arg ∧ es = [.registered listener arg]) ∨
    (s'.pc t).storing = true
  sees : (s.pc t).Sees s.listener s.listenerArg → (s'.pc t).Sees s'.listener s'.listenerArg
  notifySees : (s.pc t).NotifySees s.listener s.listenerArg →
    (s'.pc t).NotifySees s'.listener s'.listenerArg
  shows : ∀ e ∈ es, e.ShownAt t (s.pc t)

@[simp] theorem registered_snoc_registered
    (listener : Option L) (arg : Option A) :
    registered (es ++ [.registered listener arg]) = (listener, arg) := by
  simp [registered]

/-- Other events leave what was registered last. -/
theorem registered_append
    (h : ∀ listener arg, .registered listener arg ∉ es) :
    registered (es₀ ++ es) = registered es₀ := by
  induction es generalizing es₀ with
  | nil =>
      rw [List.append_nil]
  | cons e es ih =>
      rw [List.append_cons, ih fun listener arg hmem => h listener arg (.tail _ hmem)]
      cases e with
      | registered listener arg =>
          exact absurd (.head _) (h listener arg)
      | _ =>
          simp [registered]

/-- The mutexes are held as the threads stand, and outside of `mediaStreamer_setListener`
the fields are those registered last. -/
structure ListenerInv
    (es : List (ListenerEvent ι L A)) (s : ListenerState ι L A) : Prop where
  mutexes : MutexInv s
  settled : (∀ t, (s.pc t).storing = false) → (s.listener, s.listenerArg) = registered es
  sees : ∀ t, (s.pc t).holds .streamer = true → (s.pc t).Sees s.listener s.listenerArg

theorem listenerInv_create :
    ListenerInv [] (ListenerState.create : ListenerState ι L A) where
  mutexes := fun _ _ => ⟨fun h => (by cases h), fun h => (by cases h)⟩
  settled := fun _ => rfl
  sees := fun _ h => by cases h

/-- Nobody stores while a thread that does not store holds the mutex. -/
theorem ListenerInv.settled_of_holds
    (h : ListenerInv es s) (hholds : (s.pc t).holds .streamer = true)
    (hstoring : (s.pc t).storing = false) :
    (s.listener, s.listenerArg) = registered es := by
  refine h.settled fun t' => ?_
  by_contra hstores
  have hstores' : (s.pc t').storing = true := by simpa using hstores
  have hsame : t' = t :=
    (h.mutexes .streamer).alone (ListenerPc.holds_of_storing hstores') hholds
  rw [hsame, hstoring] at hstores'
  cases hstores'

/-- Nobody is in `mediaStreamer_setListener` during `Notify`. -/
structure NotifyInv (s : ListenerState ι L A) : Prop where
  apart : ∀ t t', (s.pc t).notifying = true → (s.pc t').setting = false
  sees : ∀ t, (s.pc t).NotifySees s.listener s.listenerArg

theorem notifyInv_create : NotifyInv (ListenerState.create : ListenerState ι L A) where
  apart := fun _ _ h => by cases h
  sees := fun _ => trivial

variable [DecidableEq ι]

theorem ListenerEffect.of_move
    {mid : ListenerState ι L A} {pc : ListenerPc L A}
    (heq : some (mid.move t pc, es) = some (s', es₀)) (hpc : mid.pc = s.pc)
    (hfields : (mid.listener = s.listener ∧ mid.listenerArg = s.listenerArg) ∨
      ((s.pc t).holds .streamer = true ∧ (s.pc t).setting = true ∧ pc.storing = true))
    (hstores : (s.pc t).storing = true →
      (∃ listener arg, s.pc t = .setUnlocking listener arg ∧
        es = [.registered listener arg]) ∨ pc.storing = true)
    (hsees : (s.pc t).Sees s.listener s.listenerArg → pc.Sees mid.listener mid.listenerArg)
    (hnotify : (s.pc t).NotifySees s.listener s.listenerArg →
      pc.NotifySees mid.listener mid.listenerArg)
    (hshows : ∀ e ∈ es, e.ShownAt t (s.pc t)) :
    ListenerEffect s t s' es₀ := by
  obtain ⟨rfl, rfl⟩ := Prod.mk.inj (Option.some.inj heq)
  have hown : (mid.move t pc).pc t = pc := Function.update_self _ _ _
  refine ⟨fun t' ht => ?_, ?_, ?_, ?_, ?_, hshows⟩
  · rw [← hpc]
    exact Function.update_of_ne ht _ _
  · rw [hown]
    exact hfields
  · rw [hown]
    exact hstores
  · rw [hown]
    exact hsees
  · rw [hown]
    exact hnotify

theorem ListenerEffect.of_lock
    {m : ListenerMutex} {pc : ListenerPc L A}
    (heq : s.lock m t pc = some (s', es)) (hstores : (s.pc t).storing = false)
    (hsees : pc.Sees s.listener s.listenerArg)
    (hnotify : pc.NotifySees s.listener s.listenerArg) : ListenerEffect s t s' es := by
  rw [ListenerState.lock] at heq
  split at heq
  · cases heq
  · refine ListenerEffect.of_move heq (by rfl) ?_ ?_ ?_ ?_ ?_
    · exact Or.inl ⟨rfl, rfl⟩
    · exact fun h => by rw [hstores] at h; cases h
    · exact fun _ => hsees
    · exact fun _ => hnotify
    · exact fun e he => by cases he

theorem listenerThreadStep_effect
    (hstep : listenerThreadStep s t = some (s', es)) : ListenerEffect s t s' es := by
  cases hpc : s.pc t with
  | idle =>
      rw [listenerThreadStep, hpc] at hstep
      cases hstep
  | setLocking listener arg =>
      rw [listenerThreadStep, hpc] at hstep
      exact .of_lock hstep (by rw [hpc]; rfl) trivial trivial
  | muxerSetLocking =>
      rw [listenerThreadStep, hpc] at hstep
      exact .of_lock hstep (by rw [hpc]; rfl) trivial trivial
  | sendLocking event =>
      rw [listenerThreadStep, hpc] at hstep
      exact .of_lock hstep (by rw [hpc]; rfl) trivial trivial
  | forwardLocking event =>
      rw [listenerThreadStep, hpc] at hstep
      exact .of_lock hstep (by rw [hpc]; rfl) trivial trivial
  | setStoring listener arg =>
      simp only [listenerThreadStep, hpc] at hstep
      refine ListenerEffect.of_move hstep (by rfl) (Or.inr ?_) ?_ ?_ (fun _ => trivial) ?_
      · rw [hpc]
        exact ⟨rfl, rfl, rfl⟩
      · exact fun _ => Or.inr rfl
      · exact fun _ => rfl
      · exact fun e he => by cases he
  | setStoringArg listener arg =>
      simp only [listenerThreadStep, hpc] at hstep
      refine ListenerEffect.of_move hstep (by rfl) (Or.inr ?_) ?_ ?_ (fun _ => trivial) ?_
      · rw [hpc]
        exact ⟨rfl, rfl, rfl⟩
      · exact fun _ => Or.inr rfl
      · rw [hpc]
        exact fun hlistener => ⟨hlistener, rfl⟩
      · exact fun e he => by cases he
  | setUnlocking listener arg =>
      simp only [listenerThreadStep, hpc, ListenerState.unlock] at hstep
      refine ListenerEffect.of_move hstep (by rfl) (Or.inl ⟨rfl, rfl⟩) ?_ ?_ (fun _ => trivial) ?_
      · exact fun _ => Or.inl ⟨listener, arg, hpc, rfl⟩
      · exact fun _ => trivial
      · rintro e he
        rw [List.mem_singleton.mp he]
        exact hpc
  | forwardCalling event listener arg =>
      simp only [listenerThreadStep, hpc] at hstep
      refine ListenerEffect.of_move hstep (by rfl) (Or.inl ⟨rfl, rfl⟩) ?_ ?_ (fun _ => trivial) ?_
      · exact fun h => by rw [hpc] at h; cases h
      · exact fun _ => trivial
      · rintro e he
        rw [List.mem_singleton.mp he]
        exact ⟨rfl, hpc⟩
  | notifyCalling event listener arg =>
      simp only [listenerThreadStep, hpc] at hstep
      refine ListenerEffect.of_move hstep (by rfl) (Or.inl ⟨rfl, rfl⟩) ?_ ?_ (fun _ => trivial) ?_
      · exact fun h => by rw [hpc] at h; cases h
      · exact fun _ => trivial
      · rintro e he
        rw [List.mem_singleton.mp he]
        exact ⟨rfl, hpc⟩
  | forwardReturning =>
      simp only [listenerThreadStep, hpc] at hstep
      refine ListenerEffect.of_move hstep (by rfl) (Or.inl ⟨rfl, rfl⟩) ?_ ?_ (fun _ => trivial) ?_
      · exact fun h => by rw [hpc] at h; cases h
      · exact fun _ => trivial
      · rintro e he
        rw [List.mem_singleton.mp he]
        exact rfl
  | notifyReturning =>
      simp only [listenerThreadStep, hpc] at hstep
      refine ListenerEffect.of_move hstep (by rfl) (Or.inl ⟨rfl, rfl⟩) ?_ ?_ (fun _ => trivial) ?_
      · exact fun h => by rw [hpc] at h; cases h
      · exact fun _ => trivial
      · rintro e he
        rw [List.mem_singleton.mp he]
        exact rfl
  | notifyTesting event =>
      simp only [listenerThreadStep, hpc] at hstep
      refine ListenerEffect.of_move hstep (by rfl) (Or.inl ⟨rfl, rfl⟩) ?_ ?_ ?_ ?_
      · exact fun h => by rw [hpc] at h; cases h
      · exact fun _ => by split <;> trivial
      · intro _
        split
        · rename_i hsome
          exact Option.isSome_iff_ne_none.mp hsome
        · trivial
      · exact fun e he => by cases he
  | _ =>
      simp only [listenerThreadStep, hpc, ListenerState.unlock] at hstep
      refine ListenerEffect.of_move hstep (by rfl) (Or.inl ⟨rfl, rfl⟩) ?_ ?_ ?_ ?_
      · exact fun h => by rw [hpc] at h; cases h
      · rw [hpc]
        first
          | exact fun _ => trivial
          | exact fun h => ⟨h, rfl⟩
          | exact fun h => ⟨h.1, h.2, rfl⟩
          | exact fun _ => by split <;> simp_all [ListenerPc.Sees, Option.isSome_iff_ne_none]
      · rw [hpc]
        first
          | exact fun _ => trivial
          | exact fun h => ⟨h, rfl⟩
          | exact fun h => ⟨h.1, h.2, rfl⟩
          | exact fun _ => by split <;> trivial
      · exact fun e he => by cases he

theorem ListenerCall.entry_sees
    (call : ListenerCall L A) (listener : Option L) (arg : Option A) :
    call.entry.Sees listener arg := by
  cases call <;> trivial

theorem ListenerCall.entry_notifySees
    (call : ListenerCall L A) (listener : Option L) (arg : Option A) :
    call.entry.NotifySees listener arg := by
  cases call <;> trivial

/-- A call begins with an effect of the same kind. -/
theorem listenerStep_effect
    (hstep : listenerStep s a = some (s', es)) :
    ∃ t, ListenerEffect s t s' es := by
  cases a with
  | call t call =>
      refine ⟨t, ?_⟩
      simp only [listenerStep] at hstep
      split at hstep
      · rename_i hidle
        refine ListenerEffect.of_move hstep rfl (Or.inl ⟨rfl, rfl⟩) ?_ ?_ ?_ ?_
        · exact fun h => by rw [hidle] at h; cases h
        · exact fun _ => call.entry_sees _ _
        · exact fun _ => call.entry_notifySees _ _
        · exact fun e he => by cases he
      · cases hstep
  | step t =>
      exact ⟨t, listenerThreadStep_effect hstep⟩

theorem listenerStep_inv
    (h : ListenerInv es₀ s) (hstep : listenerStep s a = some (s', es)) :
    ListenerInv (es₀ ++ es) s' := by
  obtain ⟨t, heffect⟩ := listenerStep_effect hstep
  have hmutexes := listenerStep_mutexInv h.mutexes hstep
  refine ⟨hmutexes, fun hnone => ?_, fun t' hholds => ?_⟩
  · have hfields : s'.listener = s.listener ∧ s'.listenerArg = s.listenerArg := by
      rcases heffect.fields with hsame | ⟨-, -, hstores⟩
      · exact hsame
      · rw [hnone t] at hstores
        cases hstores
    rw [hfields.1, hfields.2]
    by_cases hstoring : (s.pc t).storing = true
    · rcases heffect.stores hstoring with ⟨listener, arg, hpc, rfl⟩ | hstores
      · have hsees := h.sees t (by rw [hpc]; rfl)
        rw [hpc] at hsees
        rw [registered_snoc_registered, ← hsees.1, ← hsees.2]
      · rw [hnone t] at hstores
        cases hstores
    · rw [registered_append]
      · refine h.settled fun t' => ?_
        by_cases ht : t' = t
        · subst ht
          simpa using hstoring
        · rw [← heffect.others t' ht]
          exact hnone t'
      · intro listener arg hmem
        have hpc : s.pc t = .setUnlocking listener arg := heffect.shows _ hmem
        exact hstoring (by rw [hpc]; rfl)
  · by_cases ht : t' = t
    · subst ht
      refine heffect.sees ?_
      by_cases hheld : (s.pc t').holds .streamer = true
      · exact h.sees t' hheld
      · exact ListenerPc.sees_of_not_holds _ _ (by simpa using hheld)
    · rw [heffect.others t' ht] at hholds ⊢
      rcases heffect.fields with ⟨hlistener, harg⟩ | ⟨hheld, -⟩
      · rw [hlistener, harg]
        exact h.sees t' hholds
      · exact absurd ((h.mutexes .streamer).alone hholds hheld) ht

end Pair

/-! ## Places -/

section Places

variable {ι L A : Type} [DecidableEq ι] {s s' : ListenerState ι L A}
  {es : List (ListenerEvent ι L A)} {t : ι} {a : ListenerAction ι L A}

/-- The steps that a thread has to take until its call returns. -/
def ListenerPc.stepsLeft : ListenerPc L A → ℕ
  | .idle => 0
  | .setLocking _ _ => 4
  | .setStoring _ _ => 3
  | .setStoringArg _ _ => 2
  | .setUnlocking _ _ => 1
  | .muxerSetLocking => 4
  | .muxerSetStoring => 3
  | .muxerSetStoringArg => 2
  | .muxerSetUnlocking => 1
  | .sendLocking _ => 11
  | .sendTesting _ => 10
  | .sendCalling _ => 9
  | .forwardLocking _ => 8
  | .forwardTesting _ => 7
  | .forwardReading _ => 6
  | .forwardReadingArg _ _ => 5
  | .forwardCalling _ _ _ => 4
  | .forwardReturning => 3
  | .forwardUnlocking => 2
  | .sendUnlocking => 1
  | .notifyTesting _ => 5
  | .notifyReading _ => 4
  | .notifyReadingArg _ _ => 3
  | .notifyCalling _ _ _ => 2
  | .notifyReturning => 1

/-- A thread goes on in its call, and the call comes to its end. -/
structure ListenerPc.GoesTo (pc pc' : ListenerPc L A) : Prop where
  stepsLeft : pc'.stepsLeft + 1 ≤ pc.stepsLeft
  setting : pc'.setting = true → pc.setting = true
  notifying : pc'.notifying = true → pc.notifying = true

theorem listenerThreadStep_goesTo
    (hstep : listenerThreadStep s t = some (s', es)) : (s.pc t).GoesTo (s'.pc t) := by
  have hmove : ∀ {mid : ListenerState ι L A} {pc : ListenerPc L A}
      {es' : List (ListenerEvent ι L A)}, some (mid.move t pc, es') = some (s', es) →
      (s.pc t).GoesTo pc → (s.pc t).GoesTo (s'.pc t) := by
    intro mid pc es' heq hgoes
    obtain ⟨rfl, -⟩ := Prod.mk.inj (Option.some.inj heq)
    rwa [show (mid.move t pc).pc t = pc from Function.update_self _ _ _]
  have hlock : ∀ {m : ListenerMutex} {pc : ListenerPc L A},
      s.lock m t pc = some (s', es) →
      (s.pc t).GoesTo pc → (s.pc t).GoesTo (s'.pc t) := by
    intro m pc heq hgoes
    rw [ListenerState.lock] at heq
    split at heq
    · cases heq
    · exact hmove heq hgoes
  cases hpc : s.pc t with
  | idle =>
      rw [listenerThreadStep, hpc] at hstep
      cases hstep
  | setLocking listener arg =>
      simp only [listenerThreadStep, hpc] at hstep
      rw [← hpc]
      refine hlock hstep ?_
      rw [hpc]
      exact ⟨Nat.le_refl _, by simp [ListenerPc.setting], by simp [ListenerPc.notifying]⟩
  | muxerSetLocking =>
      simp only [listenerThreadStep, hpc] at hstep
      rw [← hpc]
      refine hlock hstep ?_
      rw [hpc]
      exact ⟨Nat.le_refl _, by simp [ListenerPc.setting], by simp [ListenerPc.notifying]⟩
  | sendLocking event =>
      simp only [listenerThreadStep, hpc] at hstep
      rw [← hpc]
      refine hlock hstep ?_
      rw [hpc]
      exact ⟨Nat.le_refl _, by simp [ListenerPc.setting], by simp [ListenerPc.notifying]⟩
  | forwardLocking event =>
      simp only [listenerThreadStep, hpc] at hstep
      rw [← hpc]
      refine hlock hstep ?_
      rw [hpc]
      exact ⟨Nat.le_refl _, by simp [ListenerPc.setting], by simp [ListenerPc.notifying]⟩
  | sendTesting event =>
      simp only [listenerThreadStep, hpc] at hstep
      rw [← hpc]
      refine hmove hstep ?_
      rw [hpc]
      split <;> exact ⟨by simp [ListenerPc.stepsLeft], by simp [ListenerPc.setting],
        by simp [ListenerPc.notifying]⟩
  | sendCalling event =>
      simp only [listenerThreadStep, hpc] at hstep
      rw [← hpc]
      refine hmove hstep ?_
      rw [hpc]
      split <;> exact ⟨by simp [ListenerPc.stepsLeft], by simp [ListenerPc.setting],
        by simp [ListenerPc.notifying]⟩
  | forwardTesting event =>
      simp only [listenerThreadStep, hpc] at hstep
      rw [← hpc]
      refine hmove hstep ?_
      rw [hpc]
      split <;> exact ⟨by simp [ListenerPc.stepsLeft], by simp [ListenerPc.setting],
        by simp [ListenerPc.notifying]⟩
  | notifyTesting event =>
      simp only [listenerThreadStep, hpc] at hstep
      rw [← hpc]
      refine hmove hstep ?_
      rw [hpc]
      split <;> exact ⟨by simp [ListenerPc.stepsLeft], by simp [ListenerPc.setting],
        by simp [ListenerPc.notifying]⟩
  | _ =>
      simp only [listenerThreadStep, hpc, ListenerState.unlock] at hstep
      rw [← hpc]
      refine hmove hstep ?_
      rw [hpc]
      exact ⟨by simp [ListenerPc.stepsLeft], by simp [ListenerPc.setting],
        by simp [ListenerPc.notifying]⟩

/-! ### Notify -/

/-- Nobody registers a listener during `Notify`. -/
def KeepsApart (τ : ListenerTransition ι L A) : Prop :=
  match τ.action with
  | .call _ (.setListener _ _) => ∀ t, (τ.src.pc t).notifying = false
  | .call _ (.notify _) => ∀ t, (τ.src.pc t).setting = false
  | _ => True

instance [Fintype ι] : ∀ τ : ListenerTransition ι L A, Decidable (KeepsApart τ)
  | ⟨s, .call _ (.setListener _ _), _, _⟩ =>
      inferInstanceAs (Decidable (∀ t, (s.pc t).notifying = false))
  | ⟨s, .call _ (.notify _), _, _⟩ =>
      inferInstanceAs (Decidable (∀ t, (s.pc t).setting = false))
  | ⟨_, .call _ .muxerSetListener, _, _⟩ | ⟨_, .call _ (.sendEvent _), _, _⟩
  | ⟨_, .step _, _, _⟩ =>
      inferInstanceAs (Decidable True)

theorem ListenerCall.notify_of_entry
    {call : ListenerCall L A} (h : call.entry.notifying = true) :
    ∃ event, call = .notify event := by
  cases call with
  | notify event =>
      exact ⟨event, rfl⟩
  | _ =>
      cases h

theorem ListenerCall.setListener_of_entry
    {call : ListenerCall L A} (h : call.entry.setting = true) :
    ∃ listener arg, call = .setListener listener arg := by
  cases call with
  | setListener listener arg =>
      exact ⟨listener, arg, rfl⟩
  | _ =>
      cases h

/-- A step leaves the threads in the calls they are in, or begins one apart. -/
theorem listenerStep_apart
    (h : NotifyInv s) (hstep : listenerStep s a = some (s', es))
    (hkeeps : KeepsApart ⟨s, a, es, s'⟩) :
    ∀ t t', (s'.pc t).notifying = true → (s'.pc t').setting = false := by
  cases a with
  | step t₀ =>
      have hgoes : ∀ t, ((s'.pc t).setting = true → (s.pc t).setting = true) ∧
          ((s'.pc t).notifying = true → (s.pc t).notifying = true) := by
        intro t
        by_cases ht : t = t₀
        · subst ht
          have hgoes := listenerThreadStep_goesTo hstep
          exact ⟨hgoes.setting, hgoes.notifying⟩
        · rw [(listenerThreadStep_effect hstep).others t ht]
          exact ⟨id, id⟩
      intro t t' hnotify
      by_contra hset
      have hset' := (hgoes t').1 (by simpa using hset)
      rw [h.apart t t' ((hgoes t).2 hnotify)] at hset'
      cases hset'
  | call t₀ call =>
      simp only [listenerStep] at hstep
      split at hstep
      · obtain ⟨rfl, -⟩ := Prod.mk.inj (Option.some.inj hstep)
        have hpc : ∀ t, (s.move t₀ call.entry).pc t =
            if t = t₀ then call.entry else s.pc t := by
          intro t
          exact Function.update_apply _ _ _ _
        intro t t' hnotify
        by_contra hset
        have hset' : ((s.move t₀ call.entry).pc t').setting = true := by simpa using hset
        rw [hpc] at hnotify hset'
        by_cases ht : t = t₀
        · rw [if_pos ht] at hnotify
          obtain ⟨event, rfl⟩ := ListenerCall.notify_of_entry hnotify
          by_cases ht' : t' = t₀
          · rw [if_pos ht'] at hset'
            cases hset'
          · rw [if_neg ht', hkeeps t'] at hset'
            cases hset'
        · rw [if_neg ht] at hnotify
          by_cases ht' : t' = t₀
          · rw [if_pos ht'] at hset'
            obtain ⟨listener, arg, rfl⟩ := ListenerCall.setListener_of_entry hset'
            rw [hkeeps t] at hnotify
            cases hnotify
          · rw [if_neg ht', h.apart t t' hnotify] at hset'
            cases hset'
      · cases hstep

theorem listenerStep_notifyInv
    (h : NotifyInv s) (hstep : listenerStep s a = some (s', es))
    (hkeeps : KeepsApart ⟨s, a, es, s'⟩) : NotifyInv s' := by
  refine ⟨listenerStep_apart h hstep hkeeps, fun t' => ?_⟩
  obtain ⟨t, heffect⟩ := listenerStep_effect hstep
  by_cases ht : t' = t
  · subst ht
    exact heffect.notifySees (h.sees t')
  · rw [heffect.others t' ht]
    rcases heffect.fields with ⟨hlistener, harg⟩ | ⟨-, hsetting, -⟩
    · rw [hlistener, harg]
      exact h.sees t'
    · refine ListenerPc.notifySees_of_not _ _ ?_
      by_contra hnotify
      rw [h.apart t' t (by simpa using hnotify)] at hsetting
      cases hsetting

end Places

/-! ## Runs -/

section Runs

variable {ι L A : Type} [DecidableEq ι] {s : ListenerState ι L A}
  {tr : List (ListenerTransition ι L A)}

theorem run_listenerInv
    (run : Run listenerStep ListenerState.create tr s) : ListenerInv (eventsOf tr) s :=
  Run.invariant (fun tr s => ListenerInv (eventsOf tr) s) listenerInv_create
    (fun tr s a es t h hstep => by
      rw [eventsOf_snoc]
      exact listenerStep_inv h hstep) run

theorem run_notifyInv
    (run : Run listenerStep ListenerState.create tr s) (hkeeps : ∀ τ ∈ tr, KeepsApart τ) :
    NotifyInv s :=
  Run.invariant_of KeepsApart (fun _ s => NotifyInv s)
    notifyInv_create
    (fun _ _ _ _ _ h hstep hkeeps => listenerStep_notifyInv h hstep hkeeps) run hkeeps

/-- The muxer calls what was registered last, and nothing is registered during a call. -/
def MuxerCalls
    (before : List (ListenerTransition ι L A)) (τ : ListenerTransition ι L A) : Prop :=
  (∀ t listener arg event, .called t listener arg event ∈ τ.events →
    listener ≠ none ∧ (listener, arg) = registered (eventsOf before)) ∧
  ∀ listener arg, .registered listener arg ∈ τ.events → ∀ t, τ.src.pc t ≠ .forwardReturning

/-- `Notify` calls what was registered last. -/
def NotifyCalls
    (before : List (ListenerTransition ι L A)) (τ : ListenerTransition ι L A) : Prop :=
  ∀ t listener arg event, .notified t listener arg event ∈ τ.events →
    listener ≠ none ∧ (listener, arg) = registered (eventsOf before)

theorem ListenerInv.muxerCalls
    (h : ListenerInv (eventsOf tr) s) {a : ListenerAction ι L A}
    {es : List (ListenerEvent ι L A)} {s' : ListenerState ι L A}
    (hstep : listenerStep s a = some (s', es)) : MuxerCalls tr ⟨s, a, es, s'⟩ := by
  obtain ⟨t, heffect⟩ := listenerStep_effect hstep
  refine ⟨fun t' listener arg event hmem => ?_, fun listener arg hmem t' hcalling => ?_⟩
  · obtain ⟨-, hpc⟩ := heffect.shows _ hmem
    have hholds : (s.pc t).holds .streamer = true := by rw [hpc]; rfl
    have hsees := h.sees t hholds
    rw [hpc] at hsees
    obtain ⟨hsome, rfl, rfl⟩ := hsees
    exact ⟨hsome, h.settled_of_holds hholds (by rw [hpc]; rfl)⟩
  · have hpc : s.pc t = .setUnlocking listener arg := heffect.shows _ hmem
    have hsame : t' = t := (h.mutexes .streamer).alone
      (show (s.pc t').holds .streamer = true by rw [show s.pc t' = _ from hcalling]; rfl)
      (by rw [hpc]; rfl)
    rw [hsame, hpc] at hcalling
    cases hcalling

theorem NotifyInv.notifyCalls
    (h : NotifyInv s) (hinv : ListenerInv (eventsOf tr) s) {a : ListenerAction ι L A}
    {es : List (ListenerEvent ι L A)} {s' : ListenerState ι L A}
    (hstep : listenerStep s a = some (s', es)) : NotifyCalls tr ⟨s, a, es, s'⟩ := by
  obtain ⟨t, heffect⟩ := listenerStep_effect hstep
  intro t' listener arg event hmem
  obtain ⟨-, hpc⟩ := heffect.shows _ hmem
  have hsees := h.sees t
  rw [hpc] at hsees
  obtain ⟨hsome, rfl, rfl⟩ := hsees
  refine ⟨hsome, hinv.settled fun t₁ => ?_⟩
  by_contra hstoring
  have hset := h.apart t t₁ (by rw [hpc]; rfl)
  rw [ListenerPc.setting_of_storing (by simpa using hstoring)] at hset
  cases hset

theorem run_muxerCalls
    (run : Run listenerStep ListenerState.create tr s) : Along MuxerCalls tr := by
  induction run with
  | nil =>
      exact along_nil _
  | snoc run hstep ih =>
      exact along_snoc_iff.mpr ⟨ih, (run_listenerInv run).muxerCalls hstep⟩

theorem run_notifyCalls
    (run : Run listenerStep ListenerState.create tr s) (hkeeps : ∀ τ ∈ tr, KeepsApart τ) :
    Along NotifyCalls tr := by
  induction run with
  | nil =>
      exact along_nil _
  | snoc run hstep ih =>
      have hbefore := fun τ hτ => hkeeps τ (List.mem_append_left _ hτ)
      exact along_snoc_iff.mpr ⟨ih hbefore,
        (run_notifyInv run hbefore).notifyCalls (run_listenerInv run) hstep⟩

end Runs

/--
The listener is called as it was registered.  In every run of any number of threads, each
call that `mediastreamer_muxerListener` makes is of the listener registered last, which is
not NULL, with the argument registered with it; and when `mediaStreamer_setListener`
returns, no such call is going on, so that the old listener is not used any more.  `Notify`,
which takes no mutex, calls what was registered last if nobody registers meanwhile.
-/
theorem listener_called_as_registered
    {ι L A : Type} [DecidableEq ι] {tr : List (ListenerTransition ι L A)}
    {s : ListenerState ι L A}
    (run : Run listenerStep ListenerState.create tr s) :
    Along MuxerCalls tr ∧ ((∀ τ ∈ tr, KeepsApart τ) → Along NotifyCalls tr) :=
  ⟨run_muxerCalls run, run_notifyCalls run⟩

/-- The client registers its listener; then the prepare thread notifies it, and the mux
thread reports that the network timed out. -/
theorem listener_called_as_registered_both :
    ∃ tr s, Run listenerStep (ListenerState.create : ListenerState Bool ℕ ℕ) tr s ∧
      eventsOf tr = [.registered (some 1) (some 2), .notified false (some 1) (some 2) 4096,
        .called true (some 1) (some 2) (-110), .returned false, .returned true] ∧
      Along MuxerCalls tr ∧ Along NotifyCalls tr := by
  obtain ⟨tr, s, run, hevents, hkeeps⟩ :=
    Run.exists_of_exec listenerStep (ListenerState.create : ListenerState Bool ℕ ℕ)
      ([.call false (.setListener (some 1) (some 2))] ++ List.replicate 4 (.step false) ++
        [.call false .muxerSetListener] ++ List.replicate 4 (.step false) ++
        [.call true (.sendEvent (-110)), .call false (.notify 4096)] ++
        List.replicate 4 (.step false) ++ List.replicate 8 (.step true) ++ [.step false] ++
        List.replicate 3 (.step true))
      (fun r => eventsOf r.1 = [.registered (some 1) (some 2),
          .notified false (some 1) (some 2) 4096, .called true (some 1) (some 2) (-110),
          .returned false, .returned true] ∧ ∀ τ ∈ r.1, KeepsApart τ)
      (by decide +kernel)
  exact ⟨tr, s, run, hevents, (listener_called_as_registered run).1,
    (listener_called_as_registered run).2 hkeeps⟩

/-- When the listener is replaced during `Notify`, the old one is called with the new
argument. -/
example :
    (exec listenerStep (ListenerState.create : ListenerState Bool ℕ ℕ)
      ([.call false (.setListener (some 1) (some 2))] ++ List.replicate 4 (.step false) ++
        [.call false (.notify 4096), .step false, .step false,
          .call true (.setListener (some 3) (some 4))] ++ List.replicate 4 (.step true) ++
        List.replicate 2 (.step false))).map (fun r => eventsOf r.1) =
      some [.registered (some 1) (some 2), .registered (some 3) (some 4),
        .notified false (some 1) (some 4) 4096] := by
  decide

/-! ## No call waits for ever -/

section Progress

variable {ι L A : Type} {s s' : ListenerState ι L A}
  {es : List (ListenerEvent ι L A)} {a : ListenerAction ι L A} {t : ι}

/-- The muxer's mutex comes before the streamer's. -/
def ListenerMutex.rank : ListenerMutex → ℕ
  | .muxer => 0
  | .streamer => 1

/-- A thread that waits for a mutex holds only those before it. -/
theorem MutexInv.ordered
    (h : MutexInv s) {m m' : ListenerMutex} (howner : s.owner m = some t)
    (hneeds : (s.pc t).needs = some m') : m.rank < m'.rank := by
  have hholds := (h m t).mp howner
  cases hpc : s.pc t <;> rw [hpc] at hholds hneeds <;>
    simp_all [ListenerPc.needs, ListenerPc.holds]
  subst hneeds
  exact Nat.zero_lt_one

variable [DecidableEq ι]

/-- Only a mutex keeps a thread from its next step. -/
theorem listenerThreadStep_enabled
    (hbusy : s.pc t ≠ .idle) (hfree : ∀ m, (s.pc t).needs = some m → s.owner m = none) :
    ∃ r, listenerThreadStep s t = some r := by
  have hlock : ∀ {m : ListenerMutex} {pc : ListenerPc L A}, s.owner m = none →
      ∃ r, s.lock m t pc = some r := by
    intro m pc howner
    rw [ListenerState.lock, howner]
    exact ⟨_, rfl⟩
  cases hpc : s.pc t with
  | idle =>
      exact absurd hpc hbusy
  | setLocking listener arg =>
      rw [listenerThreadStep, hpc]
      exact hlock (hfree _ (by rw [hpc]; rfl))
  | muxerSetLocking =>
      rw [listenerThreadStep, hpc]
      exact hlock (hfree _ (by rw [hpc]; rfl))
  | sendLocking event =>
      rw [listenerThreadStep, hpc]
      exact hlock (hfree _ (by rw [hpc]; rfl))
  | forwardLocking event =>
      rw [listenerThreadStep, hpc]
      exact hlock (hfree _ (by rw [hpc]; rfl))
  | _ =>
      simp only [listenerThreadStep, hpc]
      exact ⟨_, rfl⟩

/-- While a call goes on, a thread in a call can take its next step. -/
theorem MutexInv.progress
    (h : MutexInv s) (hbusy : s.pc t ≠ .idle) :
    ∃ t', s.pc t' ≠ .idle ∧ ∃ r, listenerStep s (.step t') = some r := by
  have hbound : ∀ m, ListenerMutex.rank m < 2 := by
    intro m
    cases m <;> simp [ListenerMutex.rank]
  obtain ⟨t', ht', hready⟩ := exists_ready hbound
    (fun _ _ _ howner hneeds => h.ordered howner hneeds) t
  have hbusy' : s.pc t' ≠ .idle := by
    rcases ht' with rfl | ⟨m, howner⟩
    · exact hbusy
    · intro hidle
      have hholds := (h m t').mp howner
      rw [hidle] at hholds
      cases hholds
  exact ⟨t', hbusy', listenerThreadStep_enabled hbusy' hready⟩

/-- The steps of a thread. -/
def isStepOf (t : ι) (τ : ListenerTransition ι L A) : Bool :=
  match τ.action with
  | .step t' => t' = t
  | .call _ _ => false

/-- The steps that a call of the thread brings. -/
def callBrings (t : ι) (τ : ListenerTransition ι L A) : ℕ :=
  match τ.action with
  | .call t' call => if t' = t then call.entry.stepsLeft else 0
  | .step _ => 0

theorem listenerStep_paid
    (t : ι) (hstep : listenerStep s a = some (s', es)) :
    (s'.pc t).stepsLeft + (if isStepOf t ⟨s, a, es, s'⟩ then 1 else 0) ≤
      (s.pc t).stepsLeft + callBrings t ⟨s, a, es, s'⟩ := by
  cases a with
  | call t₀ call =>
      simp only [listenerStep] at hstep
      split at hstep
      · rename_i hidle
        obtain ⟨rfl, -⟩ := Prod.mk.inj (Option.some.inj hstep)
        show ((Function.update s.pc t₀ call.entry) t).stepsLeft + 0 ≤
          (s.pc t).stepsLeft + if t₀ = t then call.entry.stepsLeft else 0
        by_cases ht : t₀ = t
        · subst ht
          rw [Function.update_self, if_pos rfl]
          exact Nat.le_add_left _ _
        · rw [Function.update_of_ne (Ne.symm ht), if_neg ht]
      · cases hstep
  | step t₀ =>
      show _ + (if decide (t₀ = t) = true then 1 else 0) ≤ (s.pc t).stepsLeft + 0
      by_cases ht : t₀ = t
      · subst ht
        simpa using (listenerThreadStep_goesTo hstep).stepsLeft
      · rw [(listenerThreadStep_effect hstep).others t (Ne.symm ht)]
        simp [ht]

end Progress

/--
Every call that concerns the listener returns.  In every run of any number of threads, a
thread has taken no more steps than its calls have brought, of which it has `stepsLeft`
left; and whenever a call is going on, a thread in a call can take its next step: the muxer's
mutex is always locked before the streamer's, so that the two do not deadlock.  The client's
listener is taken to return, and to make none of these calls itself.
-/
theorem listener_calls_return
    {ι L A : Type} [DecidableEq ι] {tr : List (ListenerTransition ι L A)}
    {s : ListenerState ι L A}
    (run : Run listenerStep ListenerState.create tr s) :
    (∀ t, (s.pc t).stepsLeft + tr.countP (isStepOf t) ≤ (tr.map (callBrings t)).sum) ∧
    ∀ t, s.pc t ≠ .idle →
      ∃ t', s.pc t' ≠ .idle ∧ ∃ r, listenerStep s (.step t') = some r := by
  refine ⟨fun t => ?_, fun t hbusy => (run_listenerInv run).mutexes.progress hbusy⟩
  obtain ⟨-, hpaid⟩ := Run.amortized (fun _ => True)
    (fun s : ListenerState ι L A => (s.pc t).stepsLeft) (isStepOf t) (callBrings t)
    (fun _ hstep => ⟨trivial, listenerStep_paid t hstep⟩) run trivial
  exact hpaid.trans (Nat.le_of_eq (Nat.zero_add _))

/-- The mux thread waits for the streamer's mutex while the client holds it. -/
theorem listener_calls_return_waits :
    ∃ tr s, Run listenerStep (ListenerState.create : ListenerState Bool ℕ ℕ) tr s ∧
      s.pc true = .forwardLocking (-110) ∧ s.pc false = .setStoring (some 1) none ∧
      (∀ t, (s.pc t).stepsLeft + tr.countP (isStepOf t) ≤ (tr.map (callBrings t)).sum) ∧
      ∃ t', s.pc t' ≠ .idle ∧ ∃ r, listenerStep s (.step t') = some r := by
  obtain ⟨tr, s, run, hmux, hclient⟩ :=
    Run.exists_of_exec listenerStep (ListenerState.create : ListenerState Bool ℕ ℕ)
      ([.call false .muxerSetListener] ++ List.replicate 4 (.step false) ++
        [.call true (.sendEvent (-110))] ++ List.replicate 3 (.step true) ++
        [.call false (.setListener (some 1) none), .step false])
      (fun r => r.2.pc true = .forwardLocking (-110) ∧
        r.2.pc false = .setStoring (some 1) none)
      (by decide +kernel)
  exact ⟨tr, s, run, hmux, hclient, (listener_calls_return run).1,
    (listener_calls_return run).2 true (by rw [hmux]; simp)⟩

end KoalaStreamer
