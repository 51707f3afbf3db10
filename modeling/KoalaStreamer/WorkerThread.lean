import KoalaStreamer.EncoderStage

/-!
# utils/mediaThread.cpp: the worker of a mediaThread

`start` advances the status before it calls `pthread_create`, and the status is
all that `stop` goes by when it joins.  An object ends with `stop`, which every
destructor calls.

Main result: `worker_lifecycle_iff`: every created thread is joined once, no other
one is, and a start that fails changes nothing, if and only if the first
`pthread_create` succeeds.
-/

namespace KoalaStreamer

open EventMachine

/-- The threads that `pthread_create` makes, in order. -/
abbrev ThreadId := ℕ

/-- `mediaThread`, as its controlling thread sees it. -/
structure MediaThread where
  mStatus : ThreadStatus
  /-- `mThreadId`; `none` while no thread is stored in it. -/
  mThreadId : Option ThreadId
  /-- The thread that `pthread_create` makes next. -/
  nextThread : ThreadId
deriving DecidableEq, Repr

inductive ThreadCall
  /-- `created` is what `pthread_create` returns, if it is called. -/
  | start (created : Int)
  | pause
  | stop
deriving DecidableEq, Repr

inductive ThreadEvent
  /-- `pthread_create` has made the thread. -/
  | created (id : ThreadId)
  /-- `pthread_join(mThreadId, NULL)`. -/
  | joined (mThreadId : Option ThreadId)
  | returned (ret : Int)
deriving DecidableEq, Repr

section Calls

/-- `mediaThread::mediaThread`. -/
def mediaThread : MediaThread where
  mStatus := .null
  mThreadId := none
  nextThread := 0

/-- `mediaThread::start`. -/
def threadStart (t : MediaThread) (created : Int) : MediaThread × List ThreadEvent :=
  if t.mStatus = .null then
    if created = 0 then
      ({ mStatus := .runing
         mThreadId := some t.nextThread
         nextThread := t.nextThread + 1 },
        [.created t.nextThread, .returned created])
    else
      -- what a failing `pthread_create` leaves in `mThreadId` is undefined
      ({ t with mStatus := .runing, mThreadId := none }, [.returned created])
  else
    (t, [.returned (-1)])

/-- `mediaThread::pause`. -/
def threadPause (t : MediaThread) : MediaThread × List ThreadEvent :=
  if t.mStatus = .runing then
    ({ t with mStatus := .pause }, [.returned 0])
  else
    (t, [.returned 0])

/-- `mediaThread::stop`. -/
def threadStop (t : MediaThread) : MediaThread × List ThreadEvent :=
  if t.mStatus = .pause ∨ t.mStatus = .runing then
    ({ t with mStatus := .stop }, [.joined t.mThreadId, .returned 0])
  else
    (t, [.returned 0])

/-- One call of the controlling thread. -/
def threadStep : Machine MediaThread ThreadCall ThreadEvent
  | t, .start created => some (threadStart t created)
  | t, .pause => some (threadPause t)
  | t, .stop => some (threadStop t)

/-- The destructors that end an object. -/
inductive Destructor
  /-- `mediaThread::~mediaThread`. -/
  | mediaThread
  /-- `FFEncoderThread::~FFEncoderThread`, and then that of its base. -/
  | ffEncoderThread
deriving DecidableEq, Repr

/-- The calls that a destructor makes. -/
def Destructor.calls : Destructor → List ThreadCall
  | .mediaThread => [.stop]
  | .ffEncoderThread => [.stop, .stop]

end Calls

/-- A call in the life of an object. -/
abbrev ThreadTransition := Transition MediaThread ThreadCall ThreadEvent

/-! ## The life of the thread -/

section Law

/-- What is to hold of the calls on one object. -/
structure WorkerLifecycle (tr : List ThreadTransition) : Prop where
  joinsCreated : Along (fun before τ => ∀ id, .joined id ∈ τ.events →
    ∃ created, id = some created ∧ .created created ∈ eventsOf before) tr
  joinedOnce : ∀ id, .created id ∈ eventsOf tr →
    (eventsOf tr).count (.joined (some id)) = 1
  failedStartUndone : ∀ τ ∈ tr, ∀ created ret, τ.action = .start created →
    .returned ret ∈ τ.events → ret ≠ 0 → τ.dst = τ.src
  stopFinal : Along (fun before τ =>
    (∃ τ' ∈ before, τ'.action = .stop ∧
      (τ'.src.mStatus = .runing ∨ τ'.src.mStatus = .pause)) →
    τ.dst.mStatus = τ.src.mStatus) tr

/-- What the call says about `pthread_create`. -/
def ThreadCall.creation : ThreadCall → Option Int
  | .start created => some created
  | _ => none

/-- The result of the first `pthread_create`; 0 if there is no start. -/
def firstCreation (calls : List ThreadCall) : Int :=
  (calls.findSome? ThreadCall.creation).getD 0

/-- The call does not create a thread in vain. -/
def CreationSucceeds (τ : ThreadTransition) : Prop :=
  τ.src.mStatus = .null → ∀ created, τ.action = .start created → created = 0

/-- The threads that the calls have created. -/
def createdThreads (es : List ThreadEvent) : List ThreadId :=
  es.filterMap fun
    | .created id => some id
    | _ => none

/-- What the calls have joined. -/
def joinedThreads (es : List ThreadEvent) : List (Option ThreadId) :=
  es.filterMap fun
    | .joined id => some id
    | _ => none

theorem createdThreads_append
    (es es' : List ThreadEvent) :
    createdThreads (es ++ es') = createdThreads es ++ createdThreads es' :=
  List.filterMap_append

theorem joinedThreads_append
    (es es' : List ThreadEvent) :
    joinedThreads (es ++ es') = joinedThreads es ++ joinedThreads es' :=
  List.filterMap_append

theorem mem_createdThreads
    {es : List ThreadEvent} {id : ThreadId} :
    id ∈ createdThreads es ↔ .created id ∈ es := by
  constructor
  · intro h
    obtain ⟨e, he, hid⟩ := List.mem_filterMap.mp h
    cases e with
    | created id' =>
        rwa [← Option.some.inj hid]
    | joined id' =>
        cases hid
    | returned ret =>
        cases hid
  · exact fun h => List.mem_filterMap.mpr ⟨_, h, rfl⟩

theorem count_joinedThreads
    (es : List ThreadEvent) (id : Option ThreadId) :
    (joinedThreads es).count id = es.count (.joined id) := by
  induction es with
  | nil =>
      rfl
  | cons e es ih =>
      cases e with
      | joined id' =>
          simp only [joinedThreads, List.filterMap_cons, List.count_cons] at ih ⊢
          rw [ih]
          simp
      | created id' =>
          simpa [joinedThreads] using ih
      | returned ret =>
          simpa [joinedThreads] using ih

end Law

/-! ## What a call can do -/

section Moves

variable {t t' : MediaThread} {call : ThreadCall} {es : List ThreadEvent}
  {tr : List ThreadTransition}

/-- The kinds of calls. -/
inductive CallMove (t : MediaThread) :
    ThreadCall → MediaThread → List ThreadEvent → Prop
  | creates (hnull : t.mStatus = .null) :
      CallMove t (.start 0)
        { mStatus := .runing
          mThreadId := some t.nextThread
          nextThread := t.nextThread + 1 }
        [.created t.nextThread, .returned 0]
  | fails (created : Int) (hnull : t.mStatus = .null) (hcreated : created ≠ 0) :
      CallMove t (.start created) { t with mStatus := .runing, mThreadId := none }
        [.returned created]
  | rejects (created : Int) (hnull : t.mStatus ≠ .null) :
      CallMove t (.start created) t [.returned (-1)]
  | pauses (hstatus : t.mStatus = .runing) :
      CallMove t .pause { t with mStatus := .pause } [.returned 0]
  | stops (hstatus : t.mStatus = .pause ∨ t.mStatus = .runing) :
      CallMove t .stop { t with mStatus := .stop }
        [.joined t.mThreadId, .returned 0]
  | skipsPause (hstatus : t.mStatus ≠ .runing) :
      CallMove t .pause t [.returned 0]
  | skipsStop (hstatus : t.mStatus ≠ .pause ∧ t.mStatus ≠ .runing) :
      CallMove t .stop t [.returned 0]

/-- Inversion of a call. -/
theorem threadStep_move
    (h : threadStep t call = some (t', es)) :
    CallMove t call t' es := by
  cases call with
  | start created =>
      simp only [threadStep, threadStart] at h
      split at h
      · rename_i hnull
        split at h
        · rename_i hcreated
          obtain ⟨rfl, rfl⟩ := Prod.mk.inj (Option.some.inj h)
          subst hcreated
          exact .creates hnull
        · rename_i hcreated
          obtain ⟨rfl, rfl⟩ := Prod.mk.inj (Option.some.inj h)
          exact .fails created hnull hcreated
      · rename_i hnull
        obtain ⟨rfl, rfl⟩ := Prod.mk.inj (Option.some.inj h)
        exact .rejects created hnull
  | pause =>
      simp only [threadStep, threadPause] at h
      split at h
      · rename_i hstatus
        obtain ⟨rfl, rfl⟩ := Prod.mk.inj (Option.some.inj h)
        exact .pauses hstatus
      · rename_i hstatus
        obtain ⟨rfl, rfl⟩ := Prod.mk.inj (Option.some.inj h)
        exact .skipsPause hstatus
  | stop =>
      simp only [threadStep, threadStop] at h
      split at h
      · rename_i hstatus
        obtain ⟨rfl, rfl⟩ := Prod.mk.inj (Option.some.inj h)
        exact .stops hstatus
      · rename_i hstatus
        obtain ⟨rfl, rfl⟩ := Prod.mk.inj (Option.some.inj h)
        exact .skipsStop (not_or.mp hstatus)

/-- The call as an action on the stage that the thread serves. -/
def ThreadCall.stageAction {Env σ T : Type} : ThreadCall → StageAction Env σ T
  | .start _ => .start
  | .pause => .pause
  | .stop => .stop

/-- The calls take the status where they take that of a stage. -/
theorem threadStep_stage
    {Env δ σ T : Type} [DecidableEq Env] {dealFn : δ → T → Option T × δ}
    {s s' : StageState Env δ T} {ses : List (StageEvent T)}
    (hstage : stageStep (σ := σ) dealFn s call.stageAction = some (s', ses))
    (hstep : threadStep t call = some (t', es)) (hsame : t.mStatus = s.mStatus) :
    t'.mStatus = s'.mStatus := by
  cases call with
  | start created =>
      simp only [ThreadCall.stageAction, stageStep, ← hsame] at hstage
      cases threadStep_move hstep with
      | creates hnull =>
          simp only [hnull, if_true] at hstage
          rw [← (Prod.mk.inj (Option.some.inj hstage)).1]
      | fails _ hnull hcreated =>
          simp only [hnull, if_true] at hstage
          rw [← (Prod.mk.inj (Option.some.inj hstage)).1]
      | rejects _ hnull =>
          simp only [hnull, if_false] at hstage
          rw [← (Prod.mk.inj (Option.some.inj hstage)).1, hsame]
  | pause =>
      simp only [ThreadCall.stageAction, stageStep, ← hsame] at hstage
      cases threadStep_move hstep with
      | pauses hstatus =>
          simp only [hstatus, if_true] at hstage
          rw [← (Prod.mk.inj (Option.some.inj hstage)).1]
      | skipsPause hstatus =>
          simp only [hstatus, if_false] at hstage
          rw [← (Prod.mk.inj (Option.some.inj hstage)).1, hsame]
  | stop =>
      simp only [ThreadCall.stageAction, stageStep, ← hsame] at hstage
      cases threadStep_move hstep with
      | stops hstatus =>
          simp only [hstatus, if_true] at hstage
          rw [← (Prod.mk.inj (Option.some.inj hstage)).1]
      | skipsStop hstatus =>
          simp only [hstatus.1, hstatus.2, or_self, if_false] at hstage
          rw [← (Prod.mk.inj (Option.some.inj hstage)).1, hsame]

/-- The status stays `threadStatusNULL` until a start. -/
theorem CallMove.null_iff
    (move : CallMove t call t' es) :
    t'.mStatus = .null ↔ t.mStatus = .null ∧ call.creation = none := by
  cases move with
  | creates hnull =>
      simp [ThreadCall.creation]
  | fails created hnull hcreated =>
      simp [ThreadCall.creation]
  | rejects created hnull =>
      simp [hnull]
  | pauses hstatus =>
      simp [hstatus]
  | stops hstatus =>
      rcases hstatus with hstatus | hstatus <;> simp [hstatus]
  | skipsPause hstatus =>
      simp [ThreadCall.creation]
  | skipsStop hstatus =>
      simp [ThreadCall.creation]

/-- The status stays `threadStatusStop`. -/
theorem CallMove.stopped
    (move : CallMove t call t' es) (h : t.mStatus = .stop) :
    t' = t := by
  cases move <;> simp_all

/-! ## Runs -/

/-- Before the first start, and only then, the status is `threadStatusNULL`. -/
theorem null_iff_unstarted
    {s : MediaThread} (run : Run threadStep mediaThread tr s) :
    s.mStatus = .null ↔ ∀ τ ∈ tr, τ.action.creation = none := by
  refine Run.invariant (fun tr s => s.mStatus = .null ↔
    ∀ τ ∈ tr, τ.action.creation = none) ?_ ?_ run
  · simp [mediaThread]
  · intro tr s call es t ih hstep
    rw [(threadStep_move hstep).null_iff, ih]
    simp [or_imp, forall_and]

/-- Every `pthread_create` of a run succeeds if the first one does. -/
theorem firstCreation_iff
    {s : MediaThread} (run : Run threadStep mediaThread tr s) :
    firstCreation (tr.map (·.action)) = 0 ↔ ∀ τ ∈ tr, CreationSucceeds τ := by
  induction run with
  | nil =>
      simp [firstCreation]
  | @snoc tr s t call es run step ih =>
      have hnull := null_iff_unstarted run
      simp only [firstCreation, List.map_append, List.map_cons, List.map_nil,
        List.findSome?_append, List.mem_append, List.mem_singleton, or_imp,
        forall_and, forall_eq] at ih ⊢
      by_cases hstatus : s.mStatus = .null
      · -- this is the first start, if it is one
        have hnone : (tr.map (·.action)).findSome? ThreadCall.creation = none := by
          simpa [List.findSome?_eq_none_iff] using hnull.mp hstatus
        have hbefore : ∀ τ ∈ tr, CreationSucceeds τ := by
          intro τ hτ _ created haction
          have hcreation := hnull.mp hstatus τ hτ
          rw [haction] at hcreation
          cases hcreation
        rw [hnone, iff_true_intro hbefore]
        cases call <;> simp [ThreadCall.creation, CreationSucceeds, hstatus]
      · obtain ⟨created, hcreated⟩ :
            ∃ created, (tr.map (·.action)).findSome? ThreadCall.creation =
              some created := by
          rw [← Option.ne_none_iff_exists', Ne, List.findSome?_eq_none_iff]
          simpa using mt hnull.mpr hstatus
        rw [hcreated] at ih ⊢
        simp only [Option.some_or, ih, CreationSucceeds, hstatus, false_imp_iff, and_true]

/-- What the calls have done, by the status that they have led to. -/
def ThreadInv (tr : List ThreadTransition) (t : MediaThread) : Prop :=
  match t.mStatus with
  | .null =>
      createdThreads (eventsOf tr) = [] ∧ joinedThreads (eventsOf tr) = []
  | .stop =>
      ∃ id, createdThreads (eventsOf tr) = [id] ∧
        joinedThreads (eventsOf tr) = [some id]
  | _ =>
      ∃ id, t.mThreadId = some id ∧ createdThreads (eventsOf tr) = [id] ∧
        joinedThreads (eventsOf tr) = []

/-- A running or paused object has one thread, which is not joined. -/
theorem ThreadInv.alive
    (h : ThreadInv tr t) (hstatus : t.mStatus = .pause ∨ t.mStatus = .runing) :
    ∃ id, t.mThreadId = some id ∧ createdThreads (eventsOf tr) = [id] ∧
      joinedThreads (eventsOf tr) = [] := by
  rcases hstatus with hstatus | hstatus <;> simpa only [ThreadInv, hstatus] using h

/-- A call that neither creates nor joins leaves the books alone. -/
theorem ThreadInv.quiet
    {τ : ThreadTransition} (h : ThreadInv tr t)
    (hcreated : createdThreads τ.events = []) (hjoined : joinedThreads τ.events = []) :
    ThreadInv (tr ++ [τ]) t := by
  simp only [ThreadInv, eventsOf_snoc, createdThreads_append, joinedThreads_append,
    hcreated, hjoined, List.append_nil]
  exact h

/-- A call that does not fail to create a thread keeps the books. -/
theorem CallMove.inv
    (move : CallMove t call t' es) (h : ThreadInv tr t)
    (hcreates : CreationSucceeds ⟨t, call, es, t'⟩) :
    ThreadInv (tr ++ [⟨t, call, es, t'⟩]) t' := by
  cases move with
  | creates hnull =>
      simp only [ThreadInv, hnull] at h
      simp only [ThreadInv, eventsOf_snoc, createdThreads_append,
        joinedThreads_append, h.1, h.2]
      exact ⟨t.nextThread, rfl, rfl, rfl⟩
  | fails created hnull hcreated =>
      exact absurd (hcreates hnull created rfl) hcreated
  | rejects created hnull =>
      exact h.quiet rfl rfl
  | pauses hstatus =>
      simp only [ThreadInv, hstatus] at h
      have hpaused : ThreadInv tr { t with mStatus := .pause } := h
      exact hpaused.quiet rfl rfl
  | stops hstatus =>
      obtain ⟨id, hid, hcreated, hjoined⟩ := h.alive hstatus
      simp only [ThreadInv, eventsOf_snoc, createdThreads_append,
        joinedThreads_append, hcreated, hjoined, hid]
      exact ⟨id, rfl, rfl⟩
  | skipsPause hstatus =>
      exact h.quiet rfl rfl
  | skipsStop hstatus =>
      exact h.quiet rfl rfl

/-- In a run whose calls create what they are to, the books are kept. -/
theorem run_threadInv
    {s : MediaThread} (run : Run threadStep mediaThread tr s)
    (hcreates : ∀ τ ∈ tr, CreationSucceeds τ) :
    ThreadInv tr s :=
  run.invariant_of CreationSucceeds ThreadInv
    (show ThreadInv [] mediaThread from ⟨rfl, rfl⟩)
    (fun _ _ _ _ _ h hstep hC => (threadStep_move hstep).inv h hC) hcreates

/-- A call joins only what was created before it. -/
theorem run_joinsCreated
    {s : MediaThread} (run : Run threadStep mediaThread tr s)
    (hcreates : ∀ τ ∈ tr, CreationSucceeds τ) :
    Along (fun before τ => ∀ id, .joined id ∈ τ.events →
      ∃ created, id = some created ∧ .created created ∈ eventsOf before) tr := by
  induction run with
  | nil =>
      exact along_nil _
  | @snoc tr s t call es run step ih =>
      have hbefore : ∀ τ ∈ tr, CreationSucceeds τ :=
        fun τ hτ => hcreates τ (List.mem_append_left _ hτ)
      refine along_snoc_iff.mpr ⟨ih hbefore, ?_⟩
      intro id hid
      cases threadStep_move step with
      | stops hstatus =>
          obtain ⟨created, hthread, hcreated, -⟩ :=
            (run_threadInv run hbefore).alive hstatus
          refine ⟨created, ?_, ?_⟩
          · rw [← hthread]
            simpa using hid
          · rw [← mem_createdThreads, hcreated]
            exact List.mem_singleton_self _
      | _ =>
          simp at hid

/-- A stop that was asked of a running or paused thread is final. -/
theorem run_stopFinal
    {s : MediaThread} (run : Run threadStep mediaThread tr s) :
    Along (fun before τ =>
      (∃ τ' ∈ before, τ'.action = .stop ∧
        (τ'.src.mStatus = .runing ∨ τ'.src.mStatus = .pause)) →
      τ.dst.mStatus = τ.src.mStatus) tr ∧
    ((∃ τ' ∈ tr, τ'.action = .stop ∧
      (τ'.src.mStatus = .runing ∨ τ'.src.mStatus = .pause)) → s.mStatus = .stop) := by
  induction run with
  | nil =>
      exact ⟨along_nil _, fun ⟨_, hτ, _⟩ => absurd hτ List.not_mem_nil⟩
  | @snoc tr s t call es run step ih =>
      obtain ⟨hlaw, hstopped⟩ := ih
      have move := threadStep_move step
      refine ⟨along_snoc_iff.mpr ⟨hlaw, fun hasked => ?_⟩, ?_⟩
      · rw [move.stopped (hstopped hasked)]
      · rintro ⟨τ', hτ', haction, hstatus⟩
        rcases List.mem_append.mp hτ' with hτ' | hτ'
        · have hstop := hstopped ⟨τ', hτ', haction, hstatus⟩
          rw [move.stopped hstop]
          exact hstop
        · obtain rfl := List.mem_singleton.mp hτ'
          cases move <;> simp_all

/-- An object whose last call is `stop` runs no thread. -/
theorem CallMove.ended
    (move : CallMove t .stop t' es) :
    t'.mStatus = .null ∨ t'.mStatus = .stop := by
  cases move with
  | stops hstatus =>
      exact Or.inr rfl
  | skipsStop hstatus =>
      cases h : t.mStatus <;> simp_all

/-- A destructor ends with `stop`. -/
theorem Destructor.ends_with_stop
    (d : Destructor) : ∃ calls, d.calls = calls ++ [.stop] := by
  cases d with
  | mediaThread =>
      exact ⟨[], rfl⟩
  | ffEncoderThread =>
      exact ⟨[.stop], rfl⟩

/-- After its destructor an object runs no thread. -/
theorem run_ended
    {s : MediaThread} {calls : List ThreadCall} {d : Destructor}
    (run : Run threadStep mediaThread tr s)
    (hcalls : tr.map (·.action) = calls ++ d.calls) :
    s.mStatus = .null ∨ s.mStatus = .stop := by
  obtain ⟨more, hmore⟩ := d.ends_with_stop
  rw [hmore, ← List.append_assoc] at hcalls
  obtain ⟨tr', last, rfl, -, hlast⟩ := List.map_eq_append_iff.mp hcalls
  obtain ⟨τ, rfl, haction⟩ := List.map_eq_singleton_iff.mp hlast
  obtain ⟨-, hvalid, rfl⟩ := run.snoc_inv
  have hstep : threadStep τ.src τ.action = some (τ.dst, τ.events) := hvalid
  rw [haction] at hstep
  exact (threadStep_move hstep).ended

/-- A failed `pthread_create` leaves a status that says that there is a thread. -/
theorem creationSucceeds_of_undone
    {τ : ThreadTransition} (hvalid : τ.Valid threadStep)
    (hundone : ∀ created ret, τ.action = .start created → .returned ret ∈ τ.events →
      ret ≠ 0 → τ.dst = τ.src) :
    CreationSucceeds τ := by
  obtain ⟨t, call, es, t'⟩ := τ
  rintro (hnull : t.mStatus = .null) created rfl
  have hstep : threadStep t (.start created) = some (t', es) := hvalid
  cases threadStep_move hstep with
  | creates _ =>
      rfl
  | fails _ _ hcreated =>
      have hsame := hundone created created rfl (by simp) hcreated
      have hstatus : ThreadStatus.runing = t.mStatus := congrArg MediaThread.mStatus hsame
      rw [hnull] at hstatus
      cases hstatus
  | rejects _ hstarted =>
      exact absurd hnull hstarted

/-- A start that fails before it calls `pthread_create` changes nothing. -/
theorem failedStart_undone
    {τ : ThreadTransition} (hvalid : τ.Valid threadStep) (hcreates : CreationSucceeds τ)
    {created ret : Int} (haction : τ.action = .start created)
    (hreturned : .returned ret ∈ τ.events) (hret : ret ≠ 0) :
    τ.dst = τ.src := by
  obtain ⟨t, call, es, t'⟩ := τ
  obtain rfl : call = .start created := haction
  have hstep : threadStep t (.start created) = some (t', es) := hvalid
  cases threadStep_move hstep with
  | creates hnull =>
      simp only [List.mem_cons, List.not_mem_nil, or_false, reduceCtorEq, false_or,
        ThreadEvent.returned.injEq] at hreturned
      exact absurd hreturned hret
  | fails _ hnull hcreated =>
      exact absurd (hcreates hnull created rfl) hcreated
  | rejects _ hnull =>
      rfl

end Moves

theorem firstCreation_destructor
    (calls : List ThreadCall) (d : Destructor) :
    firstCreation (calls ++ d.calls) = firstCreation calls := by
  have hnone : d.calls.findSome? ThreadCall.creation = none := by
    cases d <;> rfl
  rw [firstCreation, List.findSome?_append, hnone, Option.or_none, firstCreation]

/--
In the life of an object every thread that was created is joined once, nothing
else is joined and a start that fails changes nothing if and only if the first
`pthread_create` succeeds.
-/
theorem worker_lifecycle_iff
    {calls : List ThreadCall} {d : Destructor}
    {tr : List ThreadTransition} {s : MediaThread}
    (run : Run threadStep mediaThread tr s)
    (hcalls : tr.map (·.action) = calls ++ d.calls) :
    WorkerLifecycle tr ↔ firstCreation calls = 0 := by
  rw [← firstCreation_destructor calls d, ← hcalls, firstCreation_iff run]
  constructor
  · intro h τ hτ
    exact creationSucceeds_of_undone (run.valid τ hτ) (h.failedStartUndone τ hτ)
  · intro hcreates
    refine ⟨run_joinsCreated run hcreates, ?_, ?_, (run_stopFinal run).1⟩
    · intro id hid
      have hinv := run_threadInv run hcreates
      rw [← mem_createdThreads] at hid
      rw [← count_joinedThreads]
      rcases run_ended run hcalls with hstatus | hstatus
      · simp only [ThreadInv, hstatus] at hinv
        rw [hinv.1] at hid
        exact absurd hid List.not_mem_nil
      · simp only [ThreadInv, hstatus] at hinv
        obtain ⟨id', hcreated, hjoined⟩ := hinv
        rw [hcreated, List.mem_singleton] at hid
        rw [hjoined, hid]
        exact List.count_singleton_self
    · intro τ hτ created ret haction hreturned hret
      exact failedStart_undone (run.valid τ hτ) (hcreates τ hτ) haction hreturned hret

/-- An object that is started, paused and deleted. -/
theorem worker_lifecycle_iff_paused :
    ∃ tr s, Run threadStep mediaThread tr s ∧
      tr.map (·.action) = [.start 0, .pause] ++ Destructor.ffEncoderThread.calls ∧
      WorkerLifecycle tr := by
  have run := Run.of_exec
    (show exec threadStep mediaThread [.start 0, .pause, .stop, .stop] = some (_, _) from rfl)
  have hcalls : [ThreadCall.start 0, .pause, .stop, .stop] =
      [.start 0, .pause] ++ Destructor.ffEncoderThread.calls := rfl
  exact ⟨_, _, run, hcalls, (worker_lifecycle_iff run hcalls).mpr rfl⟩

/-- `pthread_create` fails with `EAGAIN`: the destructor joins a thread that was
never created. -/
theorem worker_lifecycle_fails_again :
    ∃ tr s, Run threadStep mediaThread tr s ∧
      tr.map (·.action) = [.start 35] ++ Destructor.ffEncoderThread.calls ∧
      createdThreads (eventsOf tr) = [] ∧ joinedThreads (eventsOf tr) = [none] ∧
      ¬WorkerLifecycle tr := by
  have run := Run.of_exec
    (show exec threadStep mediaThread [.start 35, .stop, .stop] = some (_, _) from rfl)
  refine ⟨_, _, run, rfl, rfl, rfl, fun h => ?_⟩
  have hundone := h.failedStartUndone _ List.mem_cons_self 35 35 rfl (by decide)
    (by decide)
  exact absurd hundone (by decide)

end KoalaStreamer
