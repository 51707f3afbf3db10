import KoalaStreamer.MediaStreamer

/-!
# MediaStreamer.c: the life cycle

What the steps of the streamer do to its status, to the prepare thread and to
the call the client is in is a small machine of its own, `LifecycleMove`; every
step of the streamer is one of its moves.

`mediaStreamer_prepare` and `mediaStreamer_stop` test the status before they act,
`mediaStreamer_start` does not.

Main result: `streamer_lifecycle_iff`: the life cycle is kept in every run in
which no start is called on a stoped streamer and no stop after a start that came
before prepare, and in no other run whose calls have returned.
-/

namespace KoalaStreamer

open EventMachine

/-- Where the client is, as far as the life cycle is concerned. -/
inductive ClientStage
  /-- In no call, or in `mediaStreamer_setopt`. -/
  | outside
  /-- `mediaStreamer_prepare`. -/
  | storing
  | creating
  /-- `mediaStreamer_start`, after it has set the status. -/
  | starting
  /-- `mediaStreamer_stop`. -/
  | testing
  | joining
  /-- `mediaStreamer_stop`, after the join. -/
  | closing
  /-- `mediaStreamer_release`. -/
  | releasing
  | released
deriving DecidableEq, Repr

def ClientPc.stage : ClientPc → ClientStage
  | .idle => .outside
  | .setoptFreeing _ _ => .outside
  | .setoptWriting _ _ => .outside
  | .prepareStoring => .storing
  | .prepareCreating => .creating
  | .startGuarding => .starting
  | .startLocking => .starting
  | .stopTesting => .testing
  | .stopJoining => .joining
  | .endGuarding => .closing
  | .endLocking => .closing
  | .endJoining => .closing
  | .closeGuarding release => if release then .releasing else .closing
  | .closeLocking release => if release then .releasing else .closing
  | .closeClearing release => if release then .releasing else .closing
  | .stopStoring => .closing
  | .releaseFreeing => .releasing
  | .released => .released

/-- Where a call brings the client. -/
def callStage (s : StreamerState) : ClientCall → ClientStage
  | .prepare => if s.status = .init then .storing else .outside
  | .start => .starting
  | .stop =>
      if MediastreamerStatus.init.value < s.status.value then .testing else .outside
  | .setopt _ _ => .outside
  | .release => .releasing

/-- The events of the life cycle. -/
def StreamerEvent.ofLifecycle : StreamerEvent → Bool
  | .called _ => true
  | .prepareCreated => true
  | .prepareJoined => true
  | .stoped => true
  | .freed => true
  | _ => false

section Moves

variable {s t : StreamerState} {action : StreamerAction} {es : List StreamerEvent}

/-- A step as the life cycle sees it. -/
inductive LifecycleMove (s t : StreamerState) :
    StreamerAction → List StreamerEvent → Prop
  /-- A step of the prepare thread. -/
  | thread {es : List StreamerEvent} (answer : PrepareAnswer)
      (hcreated : s.prepare ≠ .notCreated) (hlive : s.prepare ≠ .exited)
      (hprepare : t.prepare ≠ .notCreated) (hclient : t.client = s.client)
      (hinit : t.status = .init → s.status = .init)
      (hstoped : t.status = .stoped → s.status = .stoped)
      (hes : ∀ e ∈ es, e.ofLifecycle = false) :
      LifecycleMove s t (.prepare answer) es
  | calls (call : ClientCall)
      (hidle : s.client = .idle) (hprepare : t.prepare = s.prepare)
      (hstage : t.client.stage = callStage s call)
      (hstatus : t.status = if call = .start then .streaming else s.status)
      (hdst : call = .stop → t = s.setClient t.client) :
      LifecycleMove s t (.call call) [.called call]
  | muxReturns
      (hdst : t = { s with muxRunning := false }) :
      LifecycleMove s t .muxReturns []
  /-- A step inside a call; `mediaStreamer_start` may return. -/
  | goes {es : List StreamerEvent} (allocated : Bool)
      (hstage : s.client.stage ≠ .testing ∧ t.client.stage = s.client.stage ∨
        s.client.stage = .starting ∧ t.client.stage = .outside)
      (hprepare : t.prepare = s.prepare) (hstatus : t.status = s.status)
      (hes : ∀ e ∈ es, e.ofLifecycle = false) :
      LifecycleMove s t (.client allocated) es
  | storesPreparing (allocated : Bool)
      (hstage : s.client.stage = .storing) (hstage' : t.client.stage = .creating)
      (hprepare : t.prepare = s.prepare) (hstatus : t.status = .preparing) :
      LifecycleMove s t (.client allocated) []
  | creates (allocated : Bool)
      (hstage : s.client.stage = .creating) (hstage' : t.client.stage = .outside)
      (hprepare : t.prepare = .testing) (hstatus : t.status = s.status) :
      LifecycleMove s t (.client allocated) [.prepareCreated]
  | passesStop (allocated : Bool)
      (hstage : s.client = .stopTesting) (hstage' : t.client.stage = .joining)
      (hlt : s.status.value < MediastreamerStatus.stoped.value)
      (hprepare : t.prepare = s.prepare) (hstatus : t.status = s.status) :
      LifecycleMove s t (.client allocated) []
  | skipsStop (allocated : Bool)
      (hstage : s.client = .stopTesting)
      (hge : ¬s.status.value < MediastreamerStatus.stoped.value)
      (hdst : t = s.setClient .idle) :
      LifecycleMove s t (.client allocated) []
  | joins (allocated : Bool)
      (hstage : s.client.stage = .joining) (hstage' : t.client.stage = .closing)
      (hend : s.prepare = .notCreated ∨ s.prepare = .exited)
      (hprepare : t.prepare = s.prepare) (hstatus : t.status = s.status) :
      LifecycleMove s t (.client allocated) [.prepareJoined]
  | storesStoped (allocated : Bool)
      (hstage : s.client.stage = .closing) (hstage' : t.client.stage = .outside)
      (hprepare : t.prepare = s.prepare) (hstatus : t.status = .stoped) :
      LifecycleMove s t (.client allocated) [.stoped]
  | frees (allocated : Bool)
      (hstage : s.client.stage = .releasing) (hstage' : t.client.stage = .released)
      (hprepare : t.prepare = s.prepare) (hstatus : t.status = s.status) :
      LifecycleMove s t (.client allocated) [.freed]

theorem koalaMuxerStart_quiet
    (s : StreamerState) :
    ∀ e ∈ s.koalaMuxerStart.2, e.ofLifecycle = false := by
  intro e he
  rw [koalaMuxerStart_events s e he]
  rfl

theorem PrepareMove.lifecycle
    (move : PrepareMove s t es) (answer : PrepareAnswer) :
    LifecycleMove s t (.prepare answer) es := by
  cases move
  case startsMux h =>
    have hes := koalaMuxerStart_quiet s
    obtain ⟨_, _, heq⟩ := koalaMuxerStart_eq s
    rw [heq]
    exact .thread answer (by simp [h]) (by simp [h]) (by simp [StreamerState.setPrepare])
      rfl id id hes
  case adds nofile h =>
    exact .thread answer (by simp [h]) (by simp [h])
      (by cases nofile <;> simp [StreamerState.setPrepare]) rfl id id (by simp)
  case notifies event h =>
    exact .thread answer (by simp [h]) (by simp [h])
      (by cases event <;> simp [StreamerState.setPrepare]) rfl id id
      (by simp [StreamerEvent.ofLifecycle])
  all_goals
    refine .thread answer ?_ ?_ ?_ ?_ ?_ ?_ ?_ <;>
      simp_all [StreamerState.setPrepare, StreamerState.setStatus, StreamerState.initFail,
        StreamerState.openHandle, StreamerEvent.ofLifecycle]

theorem ClientMove.lifecycle
    {allocated : Bool} (move : ClientMove s allocated t es) :
    LifecycleMove s t (.client allocated) es := by
  cases move with
  | storesPreparing h =>
      exact .storesPreparing allocated (by rw [h]; rfl) rfl rfl rfl
  | creates h =>
      exact .creates allocated (by rw [h]; rfl) rfl rfl rfl
  | startsMux h hfree =>
      have hes := koalaMuxerStart_quiet s
      obtain ⟨_, _, heq⟩ := koalaMuxerStart_eq s
      rw [heq]
      exact .goes allocated (.inr ⟨by rw [h]; rfl, rfl⟩) rfl rfl hes
  | passesStop h hlt =>
      exact .passesStop allocated h rfl hlt rfl rfl
  | skipsStop h hge =>
      exact .skipsStop allocated h hge rfl
  | joins h hend =>
      exact .joins allocated (by rw [h]; rfl) rfl hend rfl rfl
  | storesStoped h =>
      exact .storesStoped allocated (by rw [h]; rfl) rfl rfl rfl
  | freesValue key value h =>
      obtain ⟨_, heq⟩ := freeValue_eq s key
      rw [heq]
      exact .goes allocated (.inl ⟨by rw [h]; simp [ClientPc.stage], by rw [h]; rfl⟩)
        rfl rfl (by simp)
  | frees h =>
      exact .frees allocated (by rw [h]; rfl) rfl rfl rfl
  | skipsStart h =>
      exact .goes allocated (.inr ⟨by rw [h]; rfl, rfl⟩) rfl rfl (by simp)
  | passesClose release h | skipsClose release h | closes release h | clears release h =>
      exact .goes allocated
        (.inl ⟨by rw [h]; cases release <;> simp [ClientPc.stage],
          by rw [h]; cases release <;> rfl⟩) rfl rfl (by simp)
  | passesStart h _ | passesEnd h | skipsEnd h | locksEnd h | endsMux h =>
      exact .goes allocated (.inl ⟨by rw [h]; simp [ClientPc.stage], by rw [h]; rfl⟩)
        rfl rfl (by simp)
  | writesOpt key value h =>
      obtain ⟨_, _, heq⟩ := writeOpt_eq s key value allocated
      rw [heq]
      exact .goes allocated (.inl ⟨by rw [h]; simp [ClientPc.stage], by rw [h]; rfl⟩)
        rfl rfl (by simp [StreamerEvent.ofLifecycle])

theorem callStep_lifecycle
    (call : ClientCall) (h : s.client = .idle) :
    LifecycleMove s (callStep s call) (.call call) [.called call] := by
  refine .calls call h ?_ ?_ ?_ ?_
  · cases call <;> rfl
  · cases call <;>
      simp only [callStep, callStage, StreamerState.setClient] <;> first | rfl | (split <;> rfl)
  · cases call <;> rfl
  · rintro rfl
    rfl

theorem StreamerMove.lifecycle
    (move : StreamerMove s action t es) :
    LifecycleMove s t action es := by
  cases move with
  | calls call h =>
      exact callStep_lifecycle call h
  | client allocated move =>
      exact move.lifecycle
  | prepare answer move =>
      exact move.lifecycle answer
  | muxReturns =>
      exact .muxReturns rfl

end Moves

/-- What holds of the prepare thread while the client is in a call. -/
structure LifecycleInv (s : StreamerState) : Prop where
  fresh : s.status = .init → s.prepare = .notCreated
  storing : s.client.stage = .storing → s.status = .init
  creating : s.client.stage = .creating → s.prepare = .notCreated ∧ s.status = .preparing
  closing : s.client.stage = .closing → s.prepare = .notCreated ∨ s.prepare = .exited

/-- A call begins outside, to set the status, to test it or to release. -/
theorem callStage_cases
    (s : StreamerState) (call : ClientCall) :
    callStage s call = .outside ∨ callStage s call = .starting ∨
    callStage s call = .testing ∨ (callStage s call = .releasing ∧ call = .release) ∨
    (callStage s call = .storing ∧ call = .prepare ∧ s.status = .init) := by
  cases call <;> simp [callStage] <;> tauto

theorem LifecycleInv.step
    {s t : StreamerState} {action : StreamerAction} {es : List StreamerEvent}
    (h : LifecycleInv s) (move : LifecycleMove s t action es) :
    LifecycleInv t := by
  obtain ⟨hfresh, hstoring, hcreating, hclosing⟩ := h
  cases move with
  | thread answer hcreated hlive hprepare hclient hinit hstoped =>
      rw [← hclient] at hstoring hcreating hclosing
      exact
        { fresh := fun h => absurd (hfresh (hinit h)) hcreated
          storing := fun h => absurd (hfresh (hstoring h)) hcreated
          creating := fun h => absurd (hcreating h).1 hcreated
          closing := fun h => absurd (hclosing h) (by simp [hcreated, hlive]) }
  | calls call hidle hprepare hstage hstatus =>
      have hinit : t.status = .init → s.status = .init := by
        rw [hstatus]
        split <;> simp
      rw [← hprepare] at hfresh
      rcases callStage_cases s call with hat | hat | hat | ⟨hat, -⟩ | ⟨hat, rfl, hzero⟩
      case inr.inr.inr.inr =>
        exact ⟨hfresh ∘ hinit, fun _ => hstatus.trans hzero, by simp [hstage, hat],
          by simp [hstage, hat]⟩
      all_goals
        exact ⟨hfresh ∘ hinit, by simp [hstage, hat], by simp [hstage, hat],
          by simp [hstage, hat]⟩
  | muxReturns hdst =>
      rw [hdst]
      exact ⟨hfresh, hstoring, hcreating, hclosing⟩
  | skipsStop allocated hclient hge hdst =>
      rw [hdst]
      exact ⟨hfresh, by simp [StreamerState.setClient, ClientPc.stage],
        by simp [StreamerState.setClient, ClientPc.stage],
        by simp [StreamerState.setClient, ClientPc.stage]⟩
  | goes allocated hstage hprepare hstatus =>
      rw [← hstatus, ← hprepare] at hfresh hcreating
      rw [← hstatus] at hstoring
      rw [← hprepare] at hclosing
      rcases hstage with ⟨-, hstage⟩ | ⟨-, hstage⟩
      · rw [← hstage] at hstoring hcreating hclosing
        exact ⟨hfresh, hstoring, hcreating, hclosing⟩
      · exact ⟨hfresh, by simp [hstage], by simp [hstage], by simp [hstage]⟩
  | _ =>
      constructor <;> simp_all

theorem LifecycleInv.of_run
    {tr : List StreamerTransition} {s : StreamerState}
    (run : Run streamerStep .create tr s) :
    LifecycleInv s :=
  run.invariant (fun _ s => LifecycleInv s)
    ⟨fun _ => rfl, fun _ => rfl, by decide, fun _ => .inl rfl⟩
    (fun _ _ _ _ _ h step => h.step (streamerStep_move step).lifecycle)

/-! ## The law -/

/-- The client takes a step of `mediaStreamer_stop`. -/
def StepsStop (τ : StreamerTransition) : Prop :=
  match τ.action with
  | .call call => call = .stop
  | .client _ =>
      τ.src.client.stage = .testing ∨ τ.src.client.stage = .joining ∨
        τ.src.client.stage = .closing
  | _ => False

/-- The life cycle of a streamer, over the steps of a run. -/
structure Lifecycle (tr : List StreamerTransition) : Prop where
  createdOnce : (eventsOf tr).count .prepareCreated ≤ 1
  joinedOnce : (eventsOf tr).count .prepareJoined ≤ 1
  joinedAfter :
    Along (fun before τ =>
      .prepareJoined ∈ τ.events → .prepareCreated ∈ eventsOf before) tr
  /-- Once stoped, the streamer never streams again and a stop has no effect. -/
  stopedFinal :
    Along (fun before τ =>
      .stoped ∈ eventsOf before →
        τ.dst.status ≠ .streaming ∧
        (StepsStop τ → τ.dst = τ.src.setClient τ.dst.client)) tr

theorem Lifecycle.of_snoc
    {tr : List StreamerTransition} {τ : StreamerTransition}
    (h : Lifecycle (tr ++ [τ])) :
    Lifecycle tr := by
  have hcount : ∀ e, (eventsOf tr).count e ≤ (eventsOf (tr ++ [τ])).count e := by
    intro e
    rw [eventsOf_snoc, List.count_append]
    exact Nat.le_add_right _ _
  exact
    { createdOnce := Nat.le_trans (hcount _) h.createdOnce
      joinedOnce := Nat.le_trans (hcount _) h.joinedOnce
      joinedAfter := (along_snoc_iff.mp h.joinedAfter).1
      stopedFinal := (along_snoc_iff.mp h.stopedFinal).1 }

/-- The condition on the calls: no start on a stoped streamer, and no stop when a
start has come before prepare. -/
def CallsInOrder (τ : StreamerTransition) : Prop :=
  (τ.action = .call .start → τ.src.status ≠ .stoped) ∧
  (τ.action = .call .stop → τ.src.status = .init ∨ τ.src.prepare ≠ .notCreated)

instance (τ : StreamerTransition) : Decidable (CallsInOrder τ) :=
  inferInstanceAs (Decidable (_ ∧ _))

/-- The stations of a streamer whose client calls in order. -/
inductive LifecyclePhase
  | fresh
  | startedFirst
  | creating
  | running
  | joined
  | stoped
deriving DecidableEq, Repr

namespace LifecyclePhase

def Holds (s : StreamerState) : LifecyclePhase → Prop
  | .fresh =>
      s.status = .init ∧ s.prepare = .notCreated ∧
        (s.client.stage = .outside ∨ s.client.stage = .storing)
  | .startedFirst =>
      s.status = .streaming ∧ s.prepare = .notCreated ∧
        (s.client.stage = .outside ∨ s.client.stage = .starting)
  | .creating =>
      s.status = .preparing ∧ s.prepare = .notCreated ∧ s.client.stage = .creating
  | .running =>
      (s.status ≠ .init ∧ s.status ≠ .stoped) ∧ s.prepare ≠ .notCreated ∧
        (s.client.stage = .outside ∨ s.client.stage = .starting ∨
          s.client.stage = .testing ∨ s.client.stage = .joining)
  | .joined =>
      (s.status ≠ .init ∧ s.status ≠ .stoped) ∧ s.prepare = .exited ∧
        s.client.stage = .closing
  | .stoped =>
      s.status = .stoped ∧ s.prepare = .exited ∧
        (s.client.stage = .outside ∨ s.client.stage = .testing)

/-- How often the prepare thread has been created. -/
def created : LifecyclePhase → ℕ
  | .fresh => 0
  | .startedFirst => 0
  | .creating => 0
  | _ => 1

/-- How often the prepare thread has been joined. -/
def joins : LifecyclePhase → ℕ
  | .joined => 1
  | .stoped => 1
  | _ => 0

/-- The events of a step from one phase to another. -/
def Counts (p q : LifecyclePhase) (es : List StreamerEvent) : Prop :=
  q.created = p.created + es.count .prepareCreated ∧
  q.joins = p.joins + es.count .prepareJoined ∧
  (q = .stoped ↔ p = .stoped ∨ .stoped ∈ es)

end LifecyclePhase

section Phases

variable {s t : StreamerState} {action : StreamerAction} {es : List StreamerEvent}
  {p : LifecyclePhase}

theorem counts_self
    (hes : ∀ e ∈ es, e.ofLifecycle = false) :
    LifecyclePhase.Counts p p es := by
  have hnot : ∀ e, StreamerEvent.ofLifecycle e = true → e ∉ es :=
    fun e he hmem => Bool.false_ne_true ((hes e hmem).symm.trans he)
  refine ⟨?_, ?_, ?_⟩
  · rw [List.count_eq_zero_of_not_mem (hnot _ rfl), Nat.add_zero]
  · rw [List.count_eq_zero_of_not_mem (hnot _ rfl), Nat.add_zero]
  · simp [hnot .stoped rfl]

/-- Where a call leads. -/
def LifecyclePhase.afterCall (p : LifecyclePhase) (call : ClientCall) : LifecyclePhase :=
  if p = .fresh ∧ call = .start then .startedFirst else p

/-- A call in order. -/
theorem phase_call
    (call : ClientCall) (hp : p.Holds s)
    (hidle : s.client = .idle) (hrelease : call ≠ .release)
    (horder : CallsInOrder ⟨s, .call call, es, t⟩)
    (hprepare : t.prepare = s.prepare)
    (hstage : t.client.stage = callStage s call)
    (hstatus : t.status = if call = .start then .streaming else s.status) :
    (p.afterCall call).Holds t ∧
    LifecyclePhase.Counts p (p.afterCall call) [.called call] := by
  have hout : s.client.stage = .outside := by
    rw [hidle]
    rfl
  constructor
  · cases call with
    | prepare =>
        cases p <;>
          simp_all [LifecyclePhase.Holds, LifecyclePhase.afterCall, callStage]
    | start =>
        cases p <;>
          simp_all [LifecyclePhase.Holds, LifecyclePhase.afterCall, callStage, CallsInOrder]
    | stop =>
        cases p <;>
          simp_all [LifecyclePhase.Holds, LifecyclePhase.afterCall, callStage, CallsInOrder]
    | setopt key value =>
        cases p <;>
          simp_all [LifecyclePhase.Holds, LifecyclePhase.afterCall, callStage]
    | release =>
        exact absurd rfl hrelease
  · refine ⟨?_, ?_, ?_⟩ <;>
      cases p <;> cases call <;>
        simp [LifecyclePhase.created, LifecyclePhase.joins, LifecyclePhase.afterCall]

/-- The prepare thread can only move while the streamer runs. -/
theorem phase_of_live
    (hp : p.Holds s) (hcreated : s.prepare ≠ .notCreated) (hlive : s.prepare ≠ .exited) :
    p = .running := by
  cases p <;> simp_all [LifecyclePhase.Holds]

theorem phase_of_stage
    (hp : p.Holds s) :
    (s.client.stage = .storing → p = .fresh) ∧
    (s.client.stage = .creating → p = .creating) ∧
    (s.client.stage = .testing → p = .running ∨ p = .stoped) ∧
    (s.client.stage = .joining → p = .running) ∧
    (s.client.stage = .closing → p = .joined) ∧
    s.client.stage ≠ .releasing := by
  cases p <;> simp_all [LifecyclePhase.Holds] <;> grind

/-- A step keeps to the phases if it is in order. -/
theorem phase_step
    (hp : p.Holds s) (move : LifecycleMove s t action es)
    (hrelease : action ≠ .call .release)
    (horder : CallsInOrder ⟨s, action, es, t⟩) :
    ∃ q : LifecyclePhase, q.Holds t ∧ p.Counts q es := by
  obtain ⟨hstoring, hcreating, htesting, hjoining, hclosing, hnot⟩ := phase_of_stage hp
  cases move with
  | thread answer hcreated hlive hprepare hclient hinit hstoped hes =>
      obtain rfl := phase_of_live hp hcreated hlive
      obtain ⟨⟨hni, hns⟩, -, hstage⟩ := hp
      refine ⟨.running, ⟨⟨fun h => hni (hinit h), fun h => hns (hstoped h)⟩, hprepare, ?_⟩,
        counts_self hes⟩
      rw [hclient]
      exact hstage
  | calls call hidle hprepare hstage hstatus hdst =>
      exact ⟨p.afterCall call, phase_call call hp hidle (fun h => hrelease (by rw [h]))
        horder hprepare hstage hstatus⟩
  | muxReturns hdst =>
      rw [hdst]
      exact ⟨p, hp, counts_self (by simp)⟩
  | goes allocated hstage hprepare hstatus hes =>
      refine ⟨p, ?_, counts_self hes⟩
      rcases hstage with ⟨-, hstage⟩ | ⟨hstage, hstage'⟩
      · cases p <;> simpa only [LifecyclePhase.Holds, hstatus, hprepare, hstage] using hp
      · cases p <;>
          simp_all [LifecyclePhase.Holds]
  | storesPreparing allocated hstage hstage' hprepare hstatus =>
      obtain rfl := hstoring hstage
      exact ⟨.creating, ⟨hstatus, hprepare.trans hp.2.1, hstage'⟩, rfl, rfl, by simp⟩
  | creates allocated hstage hstage' hprepare hstatus =>
      obtain rfl := hcreating hstage
      refine ⟨.running, ⟨?_, by simp [hprepare], .inl hstage'⟩, rfl, rfl, by simp⟩
      rw [hstatus, hp.1]
      decide
  | passesStop allocated hclient hstage' hlt hprepare hstatus =>
      obtain ⟨hns, -⟩ := (MediastreamerStatus.lt_stoped_iff _).mp hlt
      have hstage : s.client.stage = .testing := by
        rw [hclient]
        rfl
      obtain rfl := (htesting hstage).resolve_right fun h => hns (h ▸ hp).1
      refine ⟨.running, ⟨hstatus ▸ hp.1, hprepare ▸ hp.2.1, ?_⟩, counts_self (by simp)⟩
      exact .inr (.inr (.inr hstage'))
  | skipsStop allocated hclient hge hdst =>
      have hstage : s.client.stage = .testing := by
        rw [hclient]
        rfl
      refine ⟨p, ?_, counts_self (by simp)⟩
      rw [hdst]
      rcases htesting hstage with rfl | rfl
      · exact ⟨hp.1, hp.2.1, .inl rfl⟩
      · exact ⟨hp.1, hp.2.1, .inl rfl⟩
  | joins allocated hstage hstage' hend hprepare hstatus =>
      obtain rfl := hjoining hstage
      obtain ⟨hni, hcreated, -⟩ := hp
      refine ⟨.joined, ⟨hstatus ▸ hni, ?_, hstage'⟩, rfl, rfl, by simp⟩
      rw [hprepare]
      exact hend.resolve_left hcreated
  | storesStoped allocated hstage hstage' hprepare hstatus =>
      obtain rfl := hclosing hstage
      exact ⟨.stoped, ⟨hstatus, hprepare.trans hp.2.1, .inl hstage'⟩, rfl, rfl, by simp⟩
  | frees allocated hstage =>
      exact absurd hstage hnot

end Phases

/-! ## Runs -/

section Runs

variable {tr : List StreamerTransition} {s : StreamerState}

/-- The phase of a state accounts for the events of the run that led to it. -/
def PhaseOf (tr : List StreamerTransition) (s : StreamerState) : Prop :=
  ∃ p : LifecyclePhase, p.Holds s ∧
    (eventsOf tr).count .prepareCreated = p.created ∧
    (eventsOf tr).count .prepareJoined = p.joins ∧
    (p = .stoped ↔ .stoped ∈ eventsOf tr)

theorem phaseOf_snoc
    {action : StreamerAction} {es : List StreamerEvent} {t : StreamerState}
    (h : PhaseOf tr s) (move : LifecycleMove s t action es)
    (hrelease : action ≠ .call .release)
    (horder : CallsInOrder ⟨s, action, es, t⟩) :
    PhaseOf (tr ++ [⟨s, action, es, t⟩]) t := by
  obtain ⟨p, hp, hcreated, hjoined, hstoped⟩ := h
  obtain ⟨q, hq, hcreated', hjoined', hstoped'⟩ := phase_step hp move hrelease horder
  refine ⟨q, hq, ?_, ?_, ?_⟩
  · rw [eventsOf_snoc, List.count_append, hcreated, hcreated']
  · rw [eventsOf_snoc, List.count_append, hjoined, hjoined']
  · rw [eventsOf_snoc, List.mem_append, hstoped', hstoped]

/-- A step in order keeps the law. -/
theorem lifecycle_snoc
    {action : StreamerAction} {es : List StreamerEvent} {t : StreamerState}
    (hphase : PhaseOf tr s) (h : Lifecycle tr) (move : LifecycleMove s t action es)
    (hrelease : action ≠ .call .release)
    (horder : CallsInOrder ⟨s, action, es, t⟩) :
    Lifecycle (tr ++ [⟨s, action, es, t⟩]) := by
  obtain ⟨q, hq, hcreated, hjoined, hstoped⟩ :=
    phaseOf_snoc hphase move hrelease horder
  obtain ⟨p, hp, hbefore, -, hfinal⟩ := hphase
  refine
    { createdOnce := ?_
      joinedOnce := ?_
      joinedAfter := along_snoc_iff.mpr ⟨h.joinedAfter, ?_⟩
      stopedFinal := along_snoc_iff.mpr ⟨h.stopedFinal, ?_⟩ }
  · rw [hcreated]
    cases q <;> decide
  · rw [hjoined]
    cases q <;> decide
  · intro hmem
    cases move with
    | joins allocated hstage =>
        obtain rfl := (phase_of_stage hp).2.2.2.1 hstage
        exact List.one_le_count_iff.mp (Nat.le_of_eq hbefore.symm)
    | thread answer _ _ _ _ _ _ hes =>
        exact absurd (hes _ hmem) (by simp [StreamerEvent.ofLifecycle])
    | goes allocated _ _ _ hes =>
        exact absurd (hes _ hmem) (by simp [StreamerEvent.ofLifecycle])
    | _ =>
        simp at hmem
  · intro hmem
    obtain rfl := hstoped.mpr (by simp [hmem])
    obtain rfl := hfinal.mpr hmem
    refine ⟨by rw [hq.1]; decide, ?_⟩
    intro hstop
    cases move with
    | calls call _ _ _ _ hdst =>
        exact hdst hstop
    | skipsStop allocated _ _ hdst =>
        rw [hdst]
        rfl
    | thread answer =>
        exact hstop.elim
    | muxReturns =>
        exact hstop.elim
    | passesStop allocated _ _ hlt =>
        exact absurd hp.1 ((MediastreamerStatus.lt_stoped_iff _).mp hlt).1
    | goes allocated hstage =>
        rcases hp.2.2 with hout | htesting
        · simp [StepsStop, hout] at hstop
        · simp [htesting] at hstage
    | _ =>
        rename_i hstage _ _ _
        simp_all [LifecyclePhase.Holds]

/-- A step whose events have no call of `release` is none. -/
theorem callStep_ne_release
    {action : StreamerAction} {es : List StreamerEvent} {t : StreamerState}
    (step : streamerStep s action = some (t, es))
    (h : .called .release ∉ es) :
    action ≠ .call .release := by
  rintro rfl
  cases streamerStep_move step
  exact h (List.mem_singleton_self _)

/-- Calls in order keep the law. -/
theorem lifecycle_of_callsInOrder
    (run : Run streamerStep .create tr s)
    (hrelease : .called .release ∉ eventsOf tr)
    (horder : ∀ τ ∈ tr, CallsInOrder τ) :
    PhaseOf tr s ∧ Lifecycle tr := by
  induction run with
  | nil =>
      refine ⟨⟨.fresh, ⟨rfl, rfl, .inl rfl⟩, rfl, rfl, by simp⟩, ?_⟩
      exact ⟨by simp, by simp, along_nil _, along_nil _⟩
  | snoc run step ih =>
      rw [eventsOf_snoc, List.mem_append, not_or] at hrelease
      obtain ⟨hphase, hlaw⟩ := ih hrelease.1 (fun τ hτ => horder τ (by simp [hτ]))
      have hmove := (streamerStep_move step).lifecycle
      have hcall := callStep_ne_release step hrelease.2
      have hlast := horder _ (List.mem_append_right _ (List.mem_singleton_self _))
      exact ⟨phaseOf_snoc hphase hmove hcall hlast,
        lifecycle_snoc hphase hlaw hmove hcall hlast⟩

/-- A thread that exists has been created. -/
theorem not_created
    (run : Run streamerStep .create tr s)
    (h : s.prepare = .notCreated) :
    .prepareCreated ∉ eventsOf tr := by
  induction run with
  | nil =>
      simp
  | snoc run step ih =>
      rw [eventsOf_snoc, List.mem_append, not_or]
      cases (streamerStep_move step).lifecycle with
      | thread answer _ _ hprepare =>
          exact absurd h hprepare
      | creates allocated _ _ hprepare =>
          simp [hprepare] at h
      | goes allocated _ hprepare _ hes =>
          exact ⟨ih (hprepare ▸ h), fun hmem => Bool.false_ne_true (hes _ hmem).symm⟩
      | muxReturns hdst =>
          exact ⟨ih (by rw [hdst] at h; exact h), by simp⟩
      | skipsStop allocated _ _ hdst =>
          exact ⟨ih (by rw [hdst] at h; exact h), by simp⟩
      | _ =>
          simp_all

/-- The client is in a stop of a streamer that was started before it was prepared. -/
def StopsUnprepared (s : StreamerState) : Prop :=
  s.prepare = .notCreated ∧ s.status = .streaming ∧
    (s.client.stage = .testing ∨ s.client.stage = .joining)

/-- A call out of order breaks the law or is such a stop. -/
theorem stopsUnprepared_of_call
    {action : StreamerAction} {es : List StreamerEvent} {t : StreamerState}
    (hphase : PhaseOf tr s) (move : LifecycleMove s t action es)
    (hlaw : Lifecycle (tr ++ [⟨s, action, es, t⟩]))
    (horder : ¬CallsInOrder ⟨s, action, es, t⟩) :
    StopsUnprepared t := by
  obtain ⟨p, hp, -, -, hstoped⟩ := hphase
  simp only [CallsInOrder, not_and_or, Classical.not_imp, not_not, not_or] at horder
  rcases horder with ⟨rfl, hfinal⟩ | ⟨rfl, hinit, hcreated⟩
  · cases move with
    | calls call hidle hprepare hstage hstatus hdst =>
        have hp' : p = .stoped := by
          cases p <;> simp_all [LifecyclePhase.Holds]
        have hdone := (along_snoc_iff.mp hlaw.stopedFinal).2 (hstoped.mp hp')
        exact absurd hstatus hdone.1
  · cases move with
    | calls call hidle hprepare hstage hstatus hdst =>
        have hout : s.client.stage = .outside := by
          rw [hidle]
          rfl
        have hp' : p = .startedFirst := by
          revert hp
          cases p <;> simp [LifecyclePhase.Holds, hinit, hcreated, hout]
        obtain rfl := hp'
        refine ⟨hprepare.trans hcreated, hstatus.trans hp.1, .inl ?_⟩
        rw [hstage]
        simp [callStage, hinit]

/-- Such a stop ends with a join of a thread that was never created. -/
theorem stopsUnprepared_snoc
    {action : StreamerAction} {es : List StreamerEvent} {t : StreamerState}
    (h : StopsUnprepared s) (hcreated : .prepareCreated ∉ eventsOf tr)
    (move : LifecycleMove s t action es)
    (hlaw : Lifecycle (tr ++ [⟨s, action, es, t⟩])) :
    StopsUnprepared t := by
  obtain ⟨hprepare, hstatus, hstage⟩ := h
  cases move with
  | thread answer hlive =>
      exact absurd hprepare hlive
  | calls call hidle =>
      simp [hidle, ClientPc.stage] at hstage
  | muxReturns hdst =>
      rw [hdst]
      exact ⟨hprepare, hstatus, hstage⟩
  | goes allocated hgoes hprepare' hstatus' =>
      refine ⟨hprepare'.trans hprepare, hstatus'.trans hstatus, ?_⟩
      rcases hgoes with ⟨-, hsame⟩ | ⟨hstart, -⟩
      · rwa [hsame]
      · simp [hstart] at hstage
  | passesStop allocated _ hstage' _ hprepare' hstatus' =>
      exact ⟨hprepare'.trans hprepare, hstatus'.trans hstatus, .inr hstage'⟩
  | skipsStop allocated _ hge =>
      exact absurd (by simp [hstatus]) hge
  | joins allocated =>
      exact absurd ((along_snoc_iff.mp hlaw.joinedAfter).2 (by simp)) hcreated
  | _ =>
      simp_all

/-- In a run that keeps the law a stop that is out of order is not finished. -/
theorem callsInOrder_of_lifecycle
    (run : Run streamerStep .create tr s)
    (hrelease : .called .release ∉ eventsOf tr)
    (hlaw : Lifecycle tr) :
    (∀ τ ∈ tr, CallsInOrder τ) ∨ StopsUnprepared s := by
  induction run with
  | nil =>
      exact .inl (by simp)
  | @snoc tr s t action es run step ih =>
      rw [eventsOf_snoc, List.mem_append, not_or] at hrelease
      have hmove := (streamerStep_move step).lifecycle
      rcases ih hrelease.1 hlaw.of_snoc with horder | hstops
      · by_cases hlast : CallsInOrder ⟨s, action, es, t⟩
        · left
          intro τ hτ
          rcases List.mem_append.mp hτ with hτ | hτ
          · exact horder τ hτ
          · rw [List.mem_singleton.mp hτ]
            exact hlast
        · have hphase := (lifecycle_of_callsInOrder run hrelease.1 horder).1
          exact .inr (stopsUnprepared_of_call hphase hmove hlaw hlast)
      · exact .inr (stopsUnprepared_snoc hstops (not_created run hstops.1) hmove hlaw)

/--
The life cycle is kept when the calls are in order, and in no other run whose calls
have returned.
-/
theorem streamer_lifecycle_iff
    (run : Run streamerStep .create tr s)
    (hrelease : .called .release ∉ eventsOf tr) :
    ((∀ τ ∈ tr, CallsInOrder τ) → Lifecycle tr) ∧
    (s.client = .idle → Lifecycle tr → ∀ τ ∈ tr, CallsInOrder τ) := by
  refine ⟨fun horder => (lifecycle_of_callsInOrder run hrelease horder).2, ?_⟩
  intro hidle hlaw
  rcases callsInOrder_of_lifecycle run hrelease hlaw with horder | ⟨-, -, hstage⟩
  · exact horder
  · simp [hidle, ClientPc.stage] at hstage

end Runs

/-- `muxer_open` fails while the client starts; a stop joins the prepare thread. -/
theorem streamer_lifecycle_iff_open_fails :
    ∃ (tr : List StreamerTransition) (s : StreamerState),
      Run streamerStep .create tr s ∧
      .prepareJoined ∈ eventsOf tr ∧ s.status = .stoped ∧
      Lifecycle tr ∧ (s.client = .idle → Lifecycle tr → ∀ τ ∈ tr, CallsInOrder τ) := by
  obtain ⟨tr, s, run, hrelease, hjoined, hstoped, horder⟩ :=
    Run.exists_of_exec streamerStep .create
      [.call .prepare, .client true, .client true,
        .prepare ⟨0, false, 0⟩, .prepare ⟨1, false, 0⟩,
        .call .start, .prepare ⟨-1, false, 0⟩, .client true,
        .call .stop, .client true, .prepare ⟨0, false, 0⟩, .client true,
        .client true, .client true, .client true]
      (fun r =>
        .called .release ∉ eventsOf r.1 ∧ .prepareJoined ∈ eventsOf r.1 ∧
        r.2.status = .stoped ∧ ∀ τ ∈ r.1, CallsInOrder τ)
      (by decide +kernel)
  have hiff := streamer_lifecycle_iff run hrelease
  exact ⟨tr, s, run, hjoined, hstoped, hiff.1 horder, hiff.2⟩

/-- A start after a stop: the streamer streams again, and a second stop joins the
prepare thread again. -/
theorem streamer_lifecycle_fails_restart :
    ∃ (tr : List StreamerTransition) (s : StreamerState),
      Run streamerStep .create tr s ∧
      .called .release ∉ eventsOf tr ∧ s.status = .streaming ∧ ¬Lifecycle tr := by
  obtain ⟨tr, s, run, hrelease, hstatus, hjoined⟩ :=
    Run.exists_of_exec streamerStep .create
      [.call .prepare, .client true, .client true,
        .call .start, .client true, .prepare ⟨0, false, 0⟩,
        .call .stop, .client true, .client true, .client true, .client true, .client true,
        .call .start, .client true,
        .call .stop, .client true, .client true]
      (fun r =>
        .called .release ∉ eventsOf r.1 ∧ r.2.status = .streaming ∧
        1 < (eventsOf r.1).count .prepareJoined)
      (by decide +kernel)
  exact ⟨tr, s, run, hrelease, hstatus,
    fun h => absurd h.joinedOnce (Nat.not_le.mpr hjoined)⟩

end KoalaStreamer
