import KoalaStreamer.StreamerLifecycle

/-!
# MediaStreamer.c: the release

`mediaStreamer_stop` joins the prepare thread only when it finds a status between
init and stoped.  A prepare thread whose `muxer_prepare` has failed sets the status
to error, which is beyond stoped, before it calls its listener and returns.

Main result: `release_after_join_iff`: for a client that prepares, stops and
releases, the streamer is freed after the prepare thread has been joined if and
only if the stop does not find the status error.
-/

namespace KoalaStreamer

open EventMachine

def StreamerEvent.calledOf : StreamerEvent → Option ClientCall
  | .called call => some call
  | _ => none

/-- The calls of the client, in order. -/
def clientCalls (es : List StreamerEvent) : List ClientCall :=
  es.filterMap StreamerEvent.calledOf

/-- A step of the prepare thread. -/
def OfPrepareThread (τ : StreamerTransition) : Prop :=
  match τ.action with
  | .prepare _ => True
  | _ => False

/-- The prepare thread has ended and is joined when the streamer is freed, and it
takes no step afterwards. -/
def JoinedBeforeFreed (tr : List StreamerTransition) : Prop :=
  Along (fun before τ =>
    (.freed ∈ τ.events → .prepareJoined ∈ eventsOf before ∧ τ.src.prepare = .exited) ∧
    (.freed ∈ eventsOf before → ¬OfPrepareThread τ)) tr

/-- `mediaStreamer_stop` compares the status with stoped and finds error. -/
def StopSeesError (τ : StreamerTransition) : Prop :=
  match τ.action with
  | .client _ => τ.src.client = .stopTesting ∧ τ.src.status = .error
  | _ => False

instance : DecidablePred StopSeesError
  | ⟨s, .client _, _, _⟩ =>
      inferInstanceAs (Decidable (s.client = .stopTesting ∧ s.status = .error))
  | ⟨_, .call _, _, _⟩ => inferInstanceAs (Decidable False)
  | ⟨_, .prepare _, _, _⟩ => inferInstanceAs (Decidable False)
  | ⟨_, .muxReturns, _, _⟩ => inferInstanceAs (Decidable False)

/-- A streamer whose client prepares, stops and releases, with the calls so far. -/
inductive ReleaseStage (s : StreamerState) (joined : Prop) : List ClientCall → Prop
  | fresh
      (hthread : s.prepare = .notCreated) (hjoined : ¬joined)
      (hstatus : s.status = .init) (hstage : s.client.stage = .outside) :
      ReleaseStage s joined []
  | preparing
      (hthread : s.prepare = .notCreated) (hjoined : ¬joined)
      (hstage : s.client.stage = .storing ∨
        s.client.stage = .creating ∧ s.status = .preparing) :
      ReleaseStage s joined [.prepare]
  | running
      (hthread : s.prepare ≠ .notCreated) (hjoined : ¬joined)
      (hstatus : s.status ≠ .init ∧ s.status ≠ .stoped)
      (hstage : s.client.stage = .outside) :
      ReleaseStage s joined [.prepare]
  | stopping
      (hthread : s.prepare ≠ .notCreated) (hjoined : ¬joined)
      (hstatus : s.status ≠ .stoped)
      (hstage : s.client.stage = .testing ∨ s.client.stage = .joining) :
      ReleaseStage s joined [.prepare, .stop]
  | stopped
      (hthread : s.prepare = .exited) (hjoined : joined)
      (hstage : s.client.stage = .closing ∨ s.client.stage = .outside) :
      ReleaseStage s joined [.prepare, .stop]
  | releasing
      (hthread : s.prepare = .exited) (hjoined : joined)
      (hstage : s.client.stage = .releasing ∨ s.client.stage = .released) :
      ReleaseStage s joined [.prepare, .stop, .release]

section Steps

variable {s t : StreamerState} {action : StreamerAction} {es : List StreamerEvent}
  {joined : Prop} {calls : List ClientCall}

/-- Only `prepare`, `stop` and `release` follow in this order. -/
theorem next_call
    {call : ClientCall}
    (hcalls : calls ++ [call] <+: [.prepare, .stop, .release]) :
    (calls = [] ∧ call = .prepare) ∨ (calls = [.prepare] ∧ call = .stop) ∨
      (calls = [.prepare, .stop] ∧ call = .release) := by
  obtain ⟨rest, hrest⟩ := hcalls
  match calls, hrest with
  | [], hrest => simp_all
  | [_], hrest => simp_all
  | [_, _], hrest => simp_all
  | _ :: _ :: _ :: _, hrest =>
      simp at hrest

/-- A call of the sequence. -/
theorem releaseStage_call
    {call : ClientCall}
    (h : ReleaseStage s joined calls)
    (hcalls : calls ++ [call] <+: [.prepare, .stop, .release])
    (hidle : s.client = .idle) (hprepare : t.prepare = s.prepare)
    (hstage : t.client.stage = callStage s call)
    (hstatus : t.status = if call = .start then .streaming else s.status) :
    ReleaseStage t joined (calls ++ [call]) := by
  have hout : s.client.stage = .outside := by
    rw [hidle]
    rfl
  rcases next_call hcalls with ⟨rfl, rfl⟩ | ⟨rfl, rfl⟩ | ⟨rfl, rfl⟩
  · cases h with
    | fresh hthread hjoined hinit =>
        refine .preparing (hprepare.trans hthread) hjoined (.inl ?_)
        rw [hstage]
        simp [callStage, hinit]
  · cases h with
    | preparing _ _ hstage => simp [hout] at hstage
    | running hthread hjoined hrun =>
        refine .stopping (hprepare ▸ hthread) hjoined ?_ (.inl ?_)
        · rw [hstatus]
          exact hrun.2
        · rw [hstage]
          simp [callStage, hrun.1]
  · cases h with
    | stopping _ _ _ hstage => simp [hout] at hstage
    | stopped hthread hjoined =>
        exact .releasing (hprepare.trans hthread) hjoined (.inl hstage)

theorem clientCalls_of_silent
    (hes : ∀ e ∈ es, e.ofLifecycle = false) :
    clientCalls es = [] ∧ .prepareJoined ∉ es := by
  constructor
  · rw [clientCalls, List.filterMap_eq_nil_iff]
    intro e he
    cases e with
    | called call => exact absurd (hes _ he) (by simp [StreamerEvent.ofLifecycle])
    | _ => rfl
  · exact fun hmem => Bool.false_ne_true (hes _ hmem).symm

/-- The stage depends on the status, the thread and the place of the client. -/
theorem ReleaseStage.congr
    {joined' : Prop}
    (h : ReleaseStage s joined calls)
    (hprepare : t.prepare = s.prepare) (hstatus : t.status = s.status)
    (hstage : t.client.stage = s.client.stage) (hjoined : joined' ↔ joined) :
    ReleaseStage t joined' calls := by
  rw [propext hjoined]
  cases h with
  | fresh h₁ h₂ h₃ h₄ =>
      exact .fresh (by rw [hprepare, h₁]) h₂ (by rw [hstatus, h₃]) (by rw [hstage, h₄])
  | preparing h₁ h₂ h₃ =>
      exact .preparing (by rw [hprepare, h₁]) h₂ (by rw [hstage, hstatus]; exact h₃)
  | running h₁ h₂ h₃ h₄ =>
      exact .running (by rw [hprepare]; exact h₁) h₂ (by rw [hstatus]; exact h₃)
        (by rw [hstage, h₄])
  | stopping h₁ h₂ h₃ h₄ =>
      exact .stopping (by rw [hprepare]; exact h₁) h₂ (by rw [hstatus]; exact h₃)
        (by rw [hstage]; exact h₄)
  | stopped h₁ h₂ h₃ =>
      exact .stopped (by rw [hprepare, h₁]) h₂ (by rw [hstage]; exact h₃)
  | releasing h₁ h₂ h₃ =>
      exact .releasing (by rw [hprepare, h₁]) h₂ (by rw [hstage]; exact h₃)

/-- A step of the prepare thread comes while it is not joined. -/
theorem releaseStage_thread
    (h : ReleaseStage s joined calls)
    (hcreated : s.prepare ≠ .notCreated) (hlive : s.prepare ≠ .exited)
    (hprepare : t.prepare ≠ .notCreated) (hclient : t.client = s.client)
    (hinit : t.status = .init → s.status = .init)
    (hstoped : t.status = .stoped → s.status = .stoped) :
    ReleaseStage t joined calls := by
  cases h with
  | fresh hthread => exact absurd hthread hcreated
  | preparing hthread => exact absurd hthread hcreated
  | running _ hjoined hstatus hstage =>
      exact .running hprepare hjoined ⟨mt hinit hstatus.1, mt hstoped hstatus.2⟩
        (by rw [hclient, hstage])
  | stopping _ hjoined hstatus hstage =>
      exact .stopping hprepare hjoined (mt hstoped hstatus) (by rw [hclient]; exact hstage)
  | stopped hthread => exact absurd hthread hlive
  | releasing hthread => exact absurd hthread hlive

/-- What a step does to the stage, if a stop does not find the status error. -/
theorem releaseStage_step
    (h : ReleaseStage s joined calls) (move : LifecycleMove s t action es)
    (hcalls : calls ++ clientCalls es <+: [.prepare, .stop, .release])
    (hsees : ¬StopSeesError ⟨s, action, es, t⟩) :
    ReleaseStage t (joined ∨ .prepareJoined ∈ es) (calls ++ clientCalls es) := by
  cases move with
  | thread answer hcreated hlive hprepare hclient hinit hstoped hes =>
      obtain ⟨hnone, hnot⟩ := clientCalls_of_silent hes
      simp only [hnone, hnot, List.append_nil, or_false]
      exact releaseStage_thread h hcreated hlive hprepare hclient hinit hstoped
  | calls call hidle hprepare hstage hstatus =>
      simp only [List.mem_singleton, reduceCtorEq, or_false]
      exact releaseStage_call h hcalls hidle hprepare hstage hstatus
  | muxReturns hdst =>
      simp only [hdst, clientCalls, List.filterMap_nil, List.append_nil, List.not_mem_nil,
        or_false]
      exact h.congr rfl rfl rfl Iff.rfl
  | goes allocated hstage hprepare hstatus hes =>
      obtain ⟨hnone, hnot⟩ := clientCalls_of_silent hes
      simp only [hnone, hnot, List.append_nil, or_false]
      rcases hstage with ⟨-, hstage⟩ | ⟨hstart, -⟩
      · exact h.congr hprepare hstatus hstage Iff.rfl
      · cases h <;> simp_all
  | storesPreparing allocated hstage hstage' hprepare hstatus =>
      cases h with
      | preparing hthread hjoined =>
          exact .preparing (hprepare.trans hthread) (by simpa using hjoined)
            (.inr ⟨hstage', hstatus⟩)
      | _ => simp_all
  | creates allocated hstage hstage' hprepare hstatus =>
      cases h with
      | preparing _ hjoined hat =>
          have hpreparing := (hat.resolve_left (by rw [hstage]; decide)).2
          refine .running (by simp [hprepare]) (by simpa using hjoined) ?_ hstage'
          rw [hstatus, hpreparing]
          decide
      | _ => simp_all
  | passesStop allocated hclient hstage' hlt hprepare hstatus =>
      have hstage : s.client.stage = .testing := by
        rw [hclient]
        rfl
      cases h with
      | stopping hthread hjoined hns =>
          exact .stopping (hprepare ▸ hthread) (by simpa using hjoined) (hstatus ▸ hns)
            (.inr hstage')
      | _ => simp_all
  | skipsStop allocated hclient hge hdst =>
      have hstage : s.client.stage = .testing := by
        rw [hclient]
        rfl
      cases h with
      | stopping _ _ hns =>
          rw [MediastreamerStatus.lt_stoped_iff, not_and_not_right] at hge
          exact absurd ⟨hclient, hge hns⟩ hsees
      | _ => simp_all
  | joins allocated hstage hstage' hend hprepare hstatus =>
      cases h with
      | stopping hthread =>
          exact .stopped (hprepare.trans (hend.resolve_left hthread)) (by simp)
            (.inl hstage')
      | _ => simp_all
  | storesStoped allocated hstage hstage' hprepare hstatus =>
      cases h with
      | stopped hthread hjoined =>
          exact .stopped (hprepare.trans hthread) (.inl hjoined) (.inr hstage')
      | _ => simp_all
  | frees allocated hstage hstage' hprepare hstatus =>
      cases h with
      | releasing hthread hjoined =>
          exact .releasing (hprepare.trans hthread) (.inl hjoined) (.inr hstage')
      | _ => simp_all

theorem ReleaseStage.of_releasing
    (h : ReleaseStage s joined calls) (hstage : s.client.stage = .releasing) :
    joined ∧ s.prepare = .exited := by
  cases h with
  | releasing hthread hjoined => exact ⟨hjoined, hthread⟩
  | _ => simp_all

theorem ReleaseStage.of_testing
    (h : ReleaseStage s joined calls) (hstage : s.client.stage = .testing) :
    ¬joined ∧ calls = [.prepare, .stop] := by
  cases h with
  | stopping _ hjoined => exact ⟨hjoined, rfl⟩
  | _ => simp_all

theorem ReleaseStage.of_creating
    (h : ReleaseStage s joined calls) (hstage : s.client.stage = .creating) :
    s.prepare = .notCreated := by
  cases h with
  | preparing hthread => exact hthread
  | _ => simp_all

/-- Only `mediaStreamer_release` frees the streamer. -/
theorem freed_stage
    (move : LifecycleMove s t action es) (h : .freed ∈ es) :
    s.client.stage = .releasing := by
  cases move with
  | frees allocated hstage => exact hstage
  | thread answer _ _ _ _ _ _ hes =>
      exact absurd (hes _ h) (by simp [StreamerEvent.ofLifecycle])
  | goes allocated _ _ _ hes =>
      exact absurd (hes _ h) (by simp [StreamerEvent.ofLifecycle])
  | _ => simp at h

/-- A prepare thread that has ended stays so. -/
theorem exited_step
    (h : ReleaseStage s joined calls) (move : LifecycleMove s t action es)
    (hexit : s.prepare = .exited) :
    t.prepare = .exited := by
  cases move with
  | thread answer _ hlive => exact absurd hexit hlive
  | creates allocated hstage => simp [h.of_creating hstage] at hexit
  | muxReturns hdst => rw [hdst]; exact hexit
  | skipsStop allocated _ _ hdst => rw [hdst]; exact hexit
  | _ => simp_all

end Steps

section Runs

variable {tr : List StreamerTransition} {s : StreamerState}

theorem clientCalls_append
    (es es' : List StreamerEvent) :
    clientCalls (es ++ es') = clientCalls es ++ clientCalls es' := by
  rw [clientCalls, List.filterMap_append]
  rfl

/-- A stop has found the status error, and nothing is joined any more. -/
def Skipped (tr : List StreamerTransition) (s : StreamerState) : Prop :=
  .prepareJoined ∉ eventsOf tr ∧
  [.prepare, .stop] <+: clientCalls (eventsOf tr) ∧
  (s.client.stage = .outside ∨ s.client.stage = .releasing ∨ s.client.stage = .released)

/-- The stage of a run in which no stop finds the status error. -/
def Staged (tr : List StreamerTransition) (s : StreamerState) : Prop :=
  ReleaseStage s (.prepareJoined ∈ eventsOf tr) (clientCalls (eventsOf tr)) ∧
  (.freed ∈ eventsOf tr → s.prepare = .exited) ∧
  JoinedBeforeFreed tr

theorem staged_snoc
    {action : StreamerAction} {es : List StreamerEvent} {t : StreamerState}
    (h : Staged tr s) (move : LifecycleMove s t action es)
    (hcalls : clientCalls (eventsOf tr ++ es) <+: [.prepare, .stop, .release])
    (hsees : ¬StopSeesError ⟨s, action, es, t⟩) :
    Staged (tr ++ [⟨s, action, es, t⟩]) t := by
  obtain ⟨hstage, hfreed, hlaw⟩ := h
  rw [clientCalls_append] at hcalls
  have hstep := releaseStage_step hstage move hcalls hsees
  refine ⟨?_, ?_, along_snoc_iff.mpr ⟨hlaw, ?_, ?_⟩⟩
  · rw [eventsOf_snoc, clientCalls_append, List.mem_append]
    exact hstep
  · intro hmem
    rw [eventsOf_snoc, List.mem_append] at hmem
    rcases hmem with hmem | hmem
    · exact exited_step hstage move (hfreed hmem)
    · exact exited_step hstage move (hstage.of_releasing (freed_stage move hmem)).2
  · intro hmem
    exact hstage.of_releasing (freed_stage move hmem)
  · intro hmem hthread
    cases move with
    | thread answer _ hlive => exact hlive (hfreed hmem)
    | _ => exact hthread

/-- A stop that finds the status error leaves the prepare thread alone. -/
theorem skipped_of_sees
    {action : StreamerAction} {es : List StreamerEvent} {t : StreamerState}
    (h : Staged tr s) (move : LifecycleMove s t action es)
    (hsees : StopSeesError ⟨s, action, es, t⟩) :
    Skipped (tr ++ [⟨s, action, es, t⟩]) t := by
  cases action with
  | client allocated =>
      obtain ⟨hclient, hstatus⟩ := hsees
      have hat : s.client.stage = .testing := by
        rw [hclient]
        rfl
      obtain ⟨hjoined, hcalls⟩ := h.1.of_testing hat
      cases move with
      | skipsStop _ _ _ hdst =>
          refine ⟨by simpa using hjoined, by simp [hcalls], .inl ?_⟩
          rw [hdst]
          rfl
      | passesStop _ _ _ hlt =>
          exact absurd hstatus ((MediastreamerStatus.lt_stoped_iff _).mp hlt).2
      | _ => simp_all
  | _ => exact hsees.elim

/-- After it nothing joins the prepare thread. -/
theorem skipped_snoc
    {action : StreamerAction} {es : List StreamerEvent} {t : StreamerState}
    (h : Skipped tr s) (move : LifecycleMove s t action es)
    (hcalls : clientCalls (eventsOf tr ++ es) <+: [.prepare, .stop, .release]) :
    Skipped (tr ++ [⟨s, action, es, t⟩]) t := by
  obtain ⟨hjoined, hmade, hstage⟩ := h
  rw [Skipped, eventsOf_snoc, List.mem_append, clientCalls_append, not_or]
  rw [clientCalls_append] at hcalls
  refine ⟨⟨hjoined, ?_⟩, hmade.trans (List.prefix_append _ _), ?_⟩
  · intro hmem
    cases move with
    | joins allocated hat => simp [hat] at hstage
    | thread answer _ _ _ _ _ _ hes =>
        exact absurd (hes _ hmem) (by simp [StreamerEvent.ofLifecycle])
    | goes allocated _ _ _ hes =>
        exact absurd (hes _ hmem) (by simp [StreamerEvent.ofLifecycle])
    | _ => simp at hmem
  · cases move with
    | calls call hidle _ hat =>
        rcases next_call hcalls with ⟨hnil, -⟩ | ⟨hone, -⟩ | ⟨-, rfl⟩
        · simp [hnil] at hmade
        · simp [hone] at hmade
        · exact .inr (.inl hat)
    | thread answer _ _ _ hclient => rwa [hclient]
    | muxReturns hdst => rwa [hdst]
    | goes allocated hat =>
        rcases hat with ⟨-, hat⟩ | ⟨hstart, -⟩
        · rwa [hat]
        · simp [hstart] at hstage
    | frees allocated _ hat => exact .inr (.inr hat)
    | skipsStop allocated _ _ hdst =>
        rw [hdst]
        exact .inl rfl
    | passesStop allocated hclient => simp [hclient, ClientPc.stage] at hstage
    | _ => simp_all

theorem staged_or_skipped
    (run : Run streamerStep .create tr s)
    (hcalls : clientCalls (eventsOf tr) <+: [.prepare, .stop, .release]) :
    (Staged tr s ∧ ∀ τ ∈ tr, ¬StopSeesError τ) ∨
    (Skipped tr s ∧ ∃ τ ∈ tr, StopSeesError τ) := by
  induction run with
  | nil =>
      exact .inl ⟨⟨.fresh rfl (by simp) rfl rfl, by simp, along_nil _⟩, by simp⟩
  | @snoc tr s t action es run step ih =>
      rw [eventsOf_snoc] at hcalls
      have hmove := (streamerStep_move step).lifecycle
      have hprev : clientCalls (eventsOf tr) <+: [.prepare, .stop, .release] := by
        rw [clientCalls_append] at hcalls
        exact (List.prefix_append _ _).trans hcalls
      rcases ih hprev with ⟨hstaged, hnone⟩ | ⟨hskipped, τ, hτ, hsees⟩
      · by_cases hsees : StopSeesError ⟨s, action, es, t⟩
        · exact .inr ⟨skipped_of_sees hstaged hmove hsees, _, by simp, hsees⟩
        · refine .inl ⟨staged_snoc hstaged hmove hcalls hsees, ?_⟩
          intro τ hτ
          rcases List.mem_append.mp hτ with hτ | hτ
          · exact hnone τ hτ
          · rw [List.mem_singleton.mp hτ]
            exact hsees
      · exact .inr ⟨skipped_snoc hskipped hmove hcalls, τ, by simp [hτ], hsees⟩

theorem joined_of_freed
    (hlaw : JoinedBeforeFreed tr) (hfreed : .freed ∈ eventsOf tr) :
    .prepareJoined ∈ eventsOf tr := by
  obtain ⟨before, τ, hpre, hmem⟩ := exists_of_mem_eventsOf hfreed
  have hbefore := (List.prefix_append before [τ]).trans hpre
  exact mem_eventsOf_mono hbefore ((hlaw before τ hpre).1 hmem).1

/--
A client that prepares, stops and releases frees the streamer after the prepare thread
has ended and been joined, if and only if its stop does not find the status error.
-/
theorem release_after_join_iff
    (run : Run streamerStep .create tr s)
    (hcalls : clientCalls (eventsOf tr) <+: [.prepare, .stop, .release]) :
    JoinedBeforeFreed tr ↔
      (.freed ∈ eventsOf tr → ∀ τ ∈ tr, ¬StopSeesError τ) := by
  constructor
  · intro hlaw hfreed
    rcases staged_or_skipped run hcalls with ⟨-, hnone⟩ | ⟨hskipped, -⟩
    · exact hnone
    · exact absurd (joined_of_freed hlaw hfreed) hskipped.1
  · intro hcond
    by_cases hfreed : .freed ∈ eventsOf tr
    · rcases staged_or_skipped run hcalls with ⟨hstaged, -⟩ | ⟨-, τ, hτ, hsees⟩
      · exact hstaged.2.2
      · exact absurd hsees (hcond hfreed τ hτ)
    · intro before τ hpre
      have hbefore := (List.prefix_append before [τ]).trans hpre
      refine ⟨fun hmem => absurd ?_ hfreed, fun hmem => absurd ?_ hfreed⟩
      · exact mem_eventsOf_mono hpre (by simp [hmem])
      · exact mem_eventsOf_mono hbefore hmem

end Runs

/-- `muxer_open` fails: the stop joins the prepare thread, and the release follows. -/
theorem release_after_join_iff_open_fails :
    ∃ (tr : List StreamerTransition) (s : StreamerState),
      Run streamerStep .create tr s ∧
      clientCalls (eventsOf tr) = [.prepare, .stop, .release] ∧ .freed ∈ eventsOf tr ∧
      JoinedBeforeFreed tr := by
  obtain ⟨tr, s, run, hcalls, hfreed, hnone⟩ :=
    Run.exists_of_exec streamerStep .create
      [.call .prepare, .client true, .client true,
        .prepare ⟨0, false, 0⟩, .prepare ⟨1, false, 0⟩, .call .stop,
        .prepare ⟨-1, false, 0⟩, .client true, .prepare ⟨0, false, 0⟩, .client true,
        .client true, .client true, .client true,
        .call .release, .client true]
      (fun r =>
        clientCalls (eventsOf r.1) = [.prepare, .stop, .release] ∧
        .freed ∈ eventsOf r.1 ∧ ∀ τ ∈ r.1, ¬StopSeesError τ)
      (by decide +kernel)
  exact ⟨tr, s, run, hcalls, hfreed,
    (release_after_join_iff run (hcalls ▸ List.prefix_refl _)).mpr fun _ => hnone⟩

/-- The output cannot be opened: the stop finds the status error, and the prepare
thread calls its listener after the streamer has been freed. -/
theorem release_after_join_fails_error :
    ∃ (tr : List StreamerTransition) (s : StreamerState),
      Run streamerStep .create tr s ∧
      clientCalls (eventsOf tr) = [.prepare, .stop, .release] ∧
      (eventsOf tr).getLast? = some (.notified .error) ∧ ¬JoinedBeforeFreed tr := by
  obtain ⟨tr, s, run, hcalls, hlast, hfreed, hjoined⟩ :=
    Run.exists_of_exec streamerStep .create
      (List.flatten
        [[.call .prepare, .client true, .client true],
          List.replicate 7 (.prepare ⟨0, false, 0⟩),
          [.prepare ⟨-1, false, 0⟩, .prepare ⟨0, false, 0⟩,
            .call .stop, .client true, .call .release],
          List.replicate 4 (.client true), [.prepare ⟨0, false, 0⟩]])
      (fun r =>
        clientCalls (eventsOf r.1) = [.prepare, .stop, .release] ∧
        (eventsOf r.1).getLast? = some (.notified .error) ∧
        .freed ∈ eventsOf r.1 ∧ .prepareJoined ∉ eventsOf r.1)
      (by decide +kernel)
  exact ⟨tr, s, run, hcalls, hlast, fun hlaw => hjoined (joined_of_freed hlaw hfreed)⟩

end KoalaStreamer
