import KoalaStreamer.StreamerLifecycle

/-!
# koala_muxer.c: the start of the mux thread

`koala_muxer_start` creates the mux thread when `mux_id` is 0.  It is called by
`mediaStreamer_start`, on the prepare thread after a successful `muxer_prepare`,
and on the client's thread at any time; `muxer_start` only tests that `muxer_open`
has set the handle.

Main result: `mux_thread_opened_iff`: the mux thread is only created on an output
whose header is written if and only if no start of the client takes `apiMutex`
before `koala_muxer_init_open` does or after it has failed.
-/

namespace KoalaStreamer

open EventMachine

namespace PreparePc

/-- The handle does not exist. -/
def beforeOpen : PreparePc → Bool
  | .notCreated => true
  | .testing => true
  | .probing => true
  | .opening => true
  | _ => false

/-- Between `open` and `koala_muxer_init_open`. -/
def beforeInit : PreparePc → Bool
  | .readingOpts => true
  | .walking _ => true
  | .applying _ _ _ => true
  | .registering => true
  | .initLocking => true
  | _ => false

/-- In `koala_muxer_init_open`, with `apiMutex`. -/
def inInit : PreparePc → Bool
  | .initAllocating => true
  | .initAdding => true
  | .initConnecting => true
  | .initWriting => true
  | _ => false

/-- In `koala_muxer_init_open`, with a context. -/
def hasContext : PreparePc → Bool
  | .initAdding => true
  | .initConnecting => true
  | .initWriting => true
  | _ => false

/-- Only reached if `muxer_prepare` has succeeded. -/
def afterSuccess : PreparePc → Bool
  | .notifying event => event = .ok
  | .startStoring => true
  | .startGuarding => true
  | .startLocking => true
  | _ => false

end PreparePc

/-- `koala_muxer_init_open` has returned 0, if there is a handle. -/
def InitOpened (s : StreamerState) : Prop :=
  s.prepare.beforeInit = false ∧ s.prepare.inInit = false ∧ 0 ≤ s.ret

/-- The mux thread is only created on an output whose header is written. -/
def MuxedOpened (tr : List StreamerTransition) : Prop :=
  ∀ τ ∈ tr, .muxCreated ∈ τ.events → τ.src.oc = true ∧ τ.src.header = true

/-- A start of the client takes `apiMutex` before `koala_muxer_init_open` does, or
after it has failed. -/
def StartsUnopened (τ : StreamerTransition) : Prop :=
  match τ.action with
  | .client _ =>
      τ.src.client = .startLocking ∧ (τ.src.prepare.beforeInit = true ∨ τ.src.ret < 0)
  | _ => False

instance (tr : List StreamerTransition) : Decidable (MuxedOpened tr) :=
  inferInstanceAs (Decidable (∀ τ ∈ tr, _))

instance : DecidablePred StartsUnopened
  | ⟨s, .client _, _, _⟩ =>
      inferInstanceAs (Decidable
        (s.client = .startLocking ∧ (s.prepare.beforeInit = true ∨ s.ret < 0)))
  | ⟨_, .call _, _, _⟩ => inferInstanceAs (Decidable False)
  | ⟨_, .prepare _, _, _⟩ => inferInstanceAs (Decidable False)
  | ⟨_, .muxReturns, _, _⟩ => inferInstanceAs (Decidable False)

/-- What the layers below the streamer agree on. -/
structure HandleInv (s : StreamerState) : Prop where
  unopened : s.prepare.beforeOpen = true → s.pDelcnt = false
  clientLocks : s.client = .startLocking → s.pDelcnt = true
  threadLocks : s.prepare = .startLocking → s.pDelcnt = true
  allocated : s.prepare.hasContext = true → s.oc = true
  succeeded : s.prepare.afterSuccess = true → 0 ≤ s.ret
  /-- The output is open, except while `koala_muxer_close` is at work. -/
  written : s.pDelcnt = true → InitOpened s → (∀ r, s.client ≠ .closeClearing r) →
    s.oc = true ∧ s.header = true
  unwritten : s.pDelcnt = true → ¬InitOpened s → s.header = false

section Steps

variable {s t : StreamerState} {es : List StreamerEvent}

/-- A step of the prepare thread that leaves the handle alone. -/
theorem HandleInv.walks
    (h : HandleInv s)
    (hclient : t.client = s.client) (hdelcnt : t.pDelcnt = s.pDelcnt)
    (hret : t.ret = s.ret) (hoc : t.oc = s.oc) (hheader : t.header = s.header)
    (hopen : t.prepare.beforeOpen = true → s.prepare.beforeOpen = true)
    (hlock : t.prepare = .startLocking → s.pDelcnt = true)
    (hcontext : t.prepare.hasContext = true → s.prepare.hasContext = true)
    (hsucceeded : t.prepare.afterSuccess = true →
      s.prepare.afterSuccess = true ∨ 0 ≤ s.ret)
    (hopened : InitOpened t ↔ InitOpened s) :
    HandleInv t where
  unopened hb := hdelcnt.trans (h.unopened (hopen hb))
  clientLocks hc := hdelcnt.trans (h.clientLocks (hclient ▸ hc))
  threadLocks ht := hdelcnt.trans (hlock ht)
  allocated hc := hoc.trans (h.allocated (hcontext hc))
  succeeded hs := hret ▸ (hsucceeded hs).elim h.succeeded id
  written hd hi hc := by
    rw [hoc, hheader]
    exact h.written (hdelcnt ▸ hd) (hopened.mp hi) (hclient ▸ hc)
  unwritten hd hi := hheader.trans (h.unwritten (hdelcnt ▸ hd) (mt hopened.mpr hi))

/-- A failure before there is a handle. -/
theorem HandleInv.noHandle
    (hdelcnt : t.pDelcnt = false)
    (hclient : t.client ≠ .startLocking) (hprepare : t.prepare = .notifying .error) :
    HandleInv t := by
  constructor <;>
    simp [hdelcnt, hclient, hprepare, PreparePc.beforeOpen, PreparePc.hasContext,
      PreparePc.afterSuccess]

/-- `koala_muxer_init_open` fails. -/
theorem HandleInv.fails
    (h : HandleInv s)
    (hinit : s.prepare.inInit = true)
    (hclient : t.client = s.client) (hdelcnt : t.pDelcnt = s.pDelcnt)
    (hheader : t.header = s.header) (hret : t.ret < 0)
    (hprepare : t.prepare = .initFailing ∨ t.prepare = .statusStoring) :
    HandleInv t := by
  have hopened : ¬InitOpened t := fun hi => absurd hi.2.2 (Int.not_le.mpr hret)
  have hbefore : ¬InitOpened s := fun hi => by simp [hi.2.1] at hinit
  exact
    { unopened := by rcases hprepare with hp | hp <;> simp [hp, PreparePc.beforeOpen]
      clientLocks := fun hc => hdelcnt.trans (h.clientLocks (hclient ▸ hc))
      threadLocks := by rcases hprepare with hp | hp <;> simp [hp]
      allocated := by rcases hprepare with hp | hp <;> simp [hp, PreparePc.hasContext]
      succeeded := by rcases hprepare with hp | hp <;> simp [hp, PreparePc.afterSuccess]
      written := fun _ hi => absurd hi hopened
      unwritten := fun hd _ => hheader.trans (h.unwritten (hdelcnt ▸ hd) hbefore) }

theorem HandleInv.prepareMove
    (h : HandleInv s) (move : PrepareMove s t es) :
    HandleInv t := by
  cases move
  case probeFails ret hp hret =>
    have hd := h.unopened (by rw [hp]; rfl)
    exact .noHandle hd (fun hc => by simp [h.clientLocks hc] at hd) rfl
  case openFails hp =>
    have hd := h.unopened (by rw [hp]; rfl)
    exact .noHandle rfl
      (fun hc => by simp [h.clientLocks hc] at hd) rfl
  case opens hp =>
    constructor <;>
      simp [StreamerState.setPrepare, StreamerState.openHandle, PreparePc.beforeOpen,
        PreparePc.hasContext, PreparePc.afterSuccess, PreparePc.beforeInit, InitOpened]
  case endsWalk left hp hleft =>
    have hbefore : ¬InitOpened s := fun hi => by simp [hp, InitOpened, PreparePc.beforeInit] at hi
    constructor <;>
      simp [StreamerState.setPrepare, PreparePc.beforeOpen, PreparePc.hasContext,
        PreparePc.afterSuccess, PreparePc.beforeInit, InitOpened]
    · exact h.clientLocks
    · exact fun hd => h.unwritten hd hbefore
  case allocateFails hp =>
    exact h.fails (by rw [hp]; rfl) rfl rfl rfl (by decide : (-1 : Int) < 0) (.inr rfl)
  case addFails hp =>
    exact h.fails (by rw [hp]; rfl) rfl rfl rfl (by decide : (-1 : Int) < 0) (.inl rfl)
  case connectFails hp =>
    exact h.fails (by rw [hp]; rfl) rfl rfl rfl (by decide : (-1 : Int) < 0) (.inl rfl)
  case headerFails hp =>
    exact h.fails (by rw [hp]; rfl) rfl rfl rfl (by decide : (-1 : Int) < 0) (.inl rfl)
  case allocates hp =>
    have hbefore : ¬InitOpened s := fun hi => by simp [hp, InitOpened, PreparePc.inInit] at hi
    constructor <;>
      simp [StreamerState.setPrepare, PreparePc.beforeOpen, PreparePc.afterSuccess,
        PreparePc.inInit, InitOpened]
    · exact h.clientLocks
    · exact fun hd => h.unwritten hd hbefore
  case writesHeader hp =>
    have hoc := h.allocated (by rw [hp]; rfl)
    constructor <;>
      simp [StreamerState.setPrepare, PreparePc.beforeOpen, PreparePc.hasContext,
        PreparePc.afterSuccess, PreparePc.beforeInit, PreparePc.inInit, InitOpened]
    · exact h.clientLocks
    · exact fun _ _ _ => hoc
  case adds nofile hp =>
    cases nofile <;>
      exact h.walks rfl rfl rfl rfl rfl (by simp [StreamerState.setPrepare, PreparePc.beforeOpen])
        (by simp [StreamerState.setPrepare]) (by simp [hp, PreparePc.hasContext])
        (by simp [StreamerState.setPrepare, PreparePc.afterSuccess])
        (by simp [hp, StreamerState.setPrepare, InitOpened, PreparePc.inInit])
  case notifies event hp =>
    cases event <;>
      exact h.walks rfl rfl rfl rfl rfl (by simp [StreamerState.setPrepare, PreparePc.beforeOpen])
        (by simp [StreamerState.setPrepare])
        (by simp [StreamerState.setPrepare, PreparePc.hasContext])
        (by simp [hp, StreamerState.setPrepare, PreparePc.afterSuccess])
        (by simp [hp, StreamerState.setPrepare, InitOpened, PreparePc.inInit,
          PreparePc.beforeInit])
  case startsMux hp =>
    obtain ⟨_, _, heq⟩ := koalaMuxerStart_eq s
    rw [heq]
    exact h.walks rfl rfl rfl rfl rfl
      (by simp [StreamerState.setPrepare, PreparePc.beforeOpen])
      (by simp [StreamerState.setPrepare])
      (by simp [StreamerState.setPrepare, PreparePc.hasContext])
      (by simp [StreamerState.setPrepare, PreparePc.afterSuccess])
      (by simp [hp, StreamerState.setPrepare, InitOpened, PreparePc.inInit,
        PreparePc.beforeInit])
  all_goals
    refine h.walks rfl rfl rfl rfl rfl ?_ ?_ ?_ ?_ ?_ <;>
      simp_all [StreamerState.setPrepare, StreamerState.setStatus, PreparePc.beforeOpen,
        PreparePc.beforeInit, PreparePc.inInit, PreparePc.hasContext,
        PreparePc.afterSuccess, InitOpened]

/-- A step of the client that leaves the handle and the prepare thread alone. -/
theorem HandleInv.clientGoes
    (h : HandleInv s)
    (hprepare : t.prepare = s.prepare) (hdelcnt : t.pDelcnt = s.pDelcnt)
    (hret : t.ret = s.ret) (hoc : t.oc = s.oc) (hheader : t.header = s.header)
    (hclear : ∀ r, s.client ≠ .closeClearing r)
    (hlock : t.client = .startLocking → s.pDelcnt = true) :
    HandleInv t := by
  have hopened : InitOpened t ↔ InitOpened s := by simp [InitOpened, hprepare, hret]
  exact
    { unopened := fun hb => hdelcnt.trans (h.unopened (hprepare ▸ hb))
      clientLocks := fun hc => hdelcnt.trans (hlock hc)
      threadLocks := fun ht => hdelcnt.trans (h.threadLocks (hprepare ▸ ht))
      allocated := fun hc => hoc.trans (h.allocated (hprepare ▸ hc))
      succeeded := fun hs => hret ▸ h.succeeded (hprepare ▸ hs)
      written := fun hd hi _ => by
        rw [hoc, hheader]
        exact h.written (hdelcnt ▸ hd) (hopened.mp hi) hclear
      unwritten := fun hd hi =>
        hheader.trans (h.unwritten (hdelcnt ▸ hd) (mt hopened.mpr hi)) }

/-- A thread that has ended or does not exist is at no other place. -/
theorem ended_place
    (h : s.prepare = .notCreated ∨ s.prepare = .exited) :
    s.prepare.hasContext = false ∧ s.prepare ≠ .startLocking := by
  rcases h with h | h <;> simp [h, PreparePc.hasContext]

theorem closing_of_clearing
    {release : Bool}
    (h : s.client = .closeLocking release ∨ s.client = .closeClearing release)
    (hrelease : s.client.stage ≠ .releasing) :
    s.client.stage = .closing := by
  rcases h with h | h <;> cases release <;> simp_all [ClientPc.stage]

theorem HandleInv.clientMove
    (h : HandleInv s) (hlife : LifecycleInv s) (hrelease : s.client.stage ≠ .releasing)
    {allocated : Bool} (move : ClientMove s allocated t es) :
    HandleInv t := by
  cases move with
  | creates hc =>
      have hthread := (hlife.creating (by rw [hc]; rfl)).1
      have hd := h.unopened (by rw [hthread]; rfl)
      constructor <;>
        simp [StreamerState.setPrepare, StreamerState.setClient, hd, PreparePc.hasContext,
          PreparePc.afterSuccess]
  | startsMux hc hfree =>
      obtain ⟨_, _, heq⟩ := koalaMuxerStart_eq s
      rw [heq]
      exact h.clientGoes rfl rfl rfl rfl rfl
        (by simp [hc]) (by simp [StreamerState.setClient])
  | passesStart hc hopen =>
      exact h.clientGoes rfl rfl rfl rfl rfl (by simp [hc]) (fun _ => hopen.2)
  | closes release hc =>
      have hend := hlife.closing (closing_of_clearing (.inl hc) hrelease)
      obtain ⟨hcontext, -⟩ := ended_place hend
      exact
        { unopened := h.unopened
          clientLocks := by simp [StreamerState.setClient]
          threadLocks := h.threadLocks
          allocated := fun hc => absurd hc (by simp [StreamerState.setClient, hcontext])
          succeeded := h.succeeded
          written := fun _ _ hno => absurd rfl (hno release)
          unwritten := h.unwritten }
  | clears release hc =>
      have hend := hlife.closing (closing_of_clearing (.inr hc) hrelease)
      obtain ⟨-, hlock⟩ := ended_place hend
      exact
        { unopened := fun _ => rfl
          clientLocks := by cases release <;> simp [StreamerState.setClient, afterClose]
          threadLocks := fun ht => absurd ht hlock
          allocated := h.allocated
          succeeded := h.succeeded
          written := by simp [StreamerState.setClient]
          unwritten := by simp [StreamerState.setClient] }
  | skipsClose release hc =>
      exact h.clientGoes rfl rfl rfl rfl rfl (by simp [hc])
        (by cases release <;> simp [StreamerState.setClient, afterClose])
  | writesOpt key value hc =>
      obtain ⟨_, _, heq⟩ := writeOpt_eq s key value allocated
      rw [heq]
      exact h.clientGoes rfl rfl rfl rfl rfl
        (by simp [hc]) (by simp [StreamerState.setClient])
  | freesValue key value hc =>
      obtain ⟨_, heq⟩ := freeValue_eq s key
      rw [heq]
      exact h.clientGoes rfl rfl rfl rfl rfl
        (by simp [hc]) (by simp [StreamerState.setClient])
  | _ =>
      rename_i hc
      exact h.clientGoes rfl rfl rfl rfl rfl (by simp_all) (by simp [StreamerState.setClient])

theorem callStep_client_ne
    (s : StreamerState) (call : ClientCall) :
    (callStep s call).client ≠ .startLocking := by
  cases call <;> simp only [callStep, StreamerState.setClient] <;>
    first | (split <;> simp) | simp

theorem HandleInv.callStep
    (h : HandleInv s) (call : ClientCall) (hidle : s.client = .idle) :
    HandleInv (callStep s call) := by
  refine h.clientGoes ?_ ?_ ?_ ?_ ?_ (by simp [hidle])
    (fun hlock => absurd hlock (callStep_client_ne s call))
  all_goals
    cases call <;> rfl

theorem HandleInv.step
    {action : StreamerAction}
    (h : HandleInv s) (hlife : LifecycleInv s) (hrelease : s.client.stage ≠ .releasing)
    (move : StreamerMove s action t es) :
    HandleInv t := by
  cases move with
  | calls call hidle =>
      exact h.callStep call hidle
  | client allocated move =>
      exact h.clientMove hlife hrelease move
  | prepare answer move =>
      exact h.prepareMove move
  | muxReturns =>
      exact ⟨h.unopened, h.clientLocks, h.threadLocks, h.allocated, h.succeeded,
        h.written, h.unwritten⟩

/-- With `apiMutex` free the prepare thread is not in `koala_muxer_init_open`. -/
theorem inInit_of_unlocked
    (h : s.apiLocked = false) :
    s.prepare.inInit = false := by
  unfold StreamerState.apiLocked at h
  split at h <;> simp_all [PreparePc.inInit]

end Steps

section Runs

variable {tr : List StreamerTransition} {s : StreamerState}

theorem not_releasing
    (run : Run streamerStep .create tr s)
    (hrelease : .called .release ∉ eventsOf tr) :
    s.client.stage ≠ .releasing := by
  induction run with
  | nil =>
      decide
  | @snoc tr s t action es run step ih =>
      rw [eventsOf_snoc, List.mem_append, not_or] at hrelease
      have hprev := ih hrelease.1
      cases (streamerStep_move step).lifecycle with
      | calls call _ _ hstage =>
          rcases callStage_cases s call with hat | hat | hat | ⟨-, rfl⟩ | ⟨hat, -, -⟩
          case inr.inr.inr.inl => simp at hrelease
          all_goals simp [hstage, hat]
      | thread answer _ _ _ hclient => rwa [hclient]
      | muxReturns hdst => rwa [hdst]
      | goes allocated hstage =>
          rcases hstage with ⟨-, hstage⟩ | ⟨-, hstage⟩
          · rwa [hstage]
          · simp [hstage]
      | skipsStop allocated _ _ hdst => simp [hdst, StreamerState.setClient, ClientPc.stage]
      | _ => simp_all

theorem HandleInv.of_run
    (run : Run streamerStep .create tr s)
    (hrelease : .called .release ∉ eventsOf tr) :
    HandleInv s := by
  induction run with
  | nil =>
      constructor <;>
        simp [StreamerState.create, PreparePc.hasContext, PreparePc.afterSuccess]
  | snoc run step ih =>
      rw [eventsOf_snoc, List.mem_append, not_or] at hrelease
      exact (ih hrelease.1).step (.of_run run) (not_releasing run hrelease.1)
        (streamerStep_move step)

/-- What a creation of the mux thread finds. -/
theorem opened_of_created
    {action : StreamerAction} {es : List StreamerEvent} {t : StreamerState}
    (h : HandleInv s) (hlife : LifecycleInv s) (hrelease : s.client.stage ≠ .releasing)
    (move : StreamerMove s action t es)
    (hearly : ¬StartsUnopened ⟨s, action, es, t⟩) (hmem : .muxCreated ∈ es) :
    s.oc = true ∧ s.header = true := by
  cases move with
  | calls call => simp at hmem
  | muxReturns => simp at hmem
  | client allocated move =>
      cases move with
      | startsMux hc hfree =>
          simp only [StartsUnopened, hc, true_and, not_or, Bool.not_eq_true,
            Int.not_lt] at hearly
          exact h.written (h.clientLocks hc)
            ⟨hearly.1, inInit_of_unlocked hfree, hearly.2⟩ (by simp [hc])
      | _ => simp at hmem
  | prepare answer move =>
      cases move with
      | startsMux hp =>
          have hlive : ¬(s.prepare = .notCreated ∨ s.prepare = .exited) := by simp [hp]
          refine h.written (h.threadLocks hp)
            ⟨by simp [hp, PreparePc.beforeInit], by simp [hp, PreparePc.inInit],
              h.succeeded (by rw [hp]; rfl)⟩ ?_
          intro release hc
          exact hlive (hlife.closing (closing_of_clearing (.inr hc) hrelease))
      | _ => simp at hmem

theorem muxedOpened_of_snoc
    {τ : StreamerTransition}
    (h : MuxedOpened (tr ++ [τ])) :
    MuxedOpened tr :=
  fun τ' hτ' => h τ' (List.mem_append_left _ hτ')

theorem koalaMuxerStart_creates
    (s : StreamerState) :
    s.mux_id = true ∨ .muxCreated ∈ s.koalaMuxerStart.2 := by
  unfold StreamerState.koalaMuxerStart
  split
  · exact .inl ‹_›
  · simp

/-- A step keeps the header of a running mux thread, or creates the thread. -/
theorem mux_step
    {action : StreamerAction} {es : List StreamerEvent} {t : StreamerState}
    (move : StreamerMove s action t es)
    (h : s.mux_id = true → s.pDelcnt = true → s.header = true)
    (hcreated : .muxCreated ∈ es → s.header = true) :
    t.mux_id = true → t.pDelcnt = true → t.header = true := by
  cases move with
  | calls call =>
      cases call <;> exact h
  | muxReturns =>
      exact h
  | client allocated move =>
      cases move with
      | startsMux _ _ =>
          have hcreates := koalaMuxerStart_creates s
          obtain ⟨_, _, heq⟩ := koalaMuxerStart_eq s
          rw [heq]
          exact fun _ hd => hcreates.elim (fun hm => h hm hd) hcreated
      | freesValue key value =>
          obtain ⟨_, heq⟩ := freeValue_eq s key
          rw [heq]
          exact h
      | writesOpt key value =>
          obtain ⟨_, _, heq⟩ := writeOpt_eq s key value allocated
          rw [heq]
          exact h
      | endsMux => exact fun hm => absurd hm Bool.false_ne_true
      | clears => exact fun _ hd => absurd hd Bool.false_ne_true
      | _ => exact h
  | prepare answer move =>
      cases move with
      | startsMux _ =>
          have hcreates := koalaMuxerStart_creates s
          obtain ⟨_, _, heq⟩ := koalaMuxerStart_eq s
          rw [heq]
          exact fun _ hd => hcreates.elim (fun hm => h hm hd) hcreated
      | openFails => exact fun _ hd => absurd hd Bool.false_ne_true
      | opens => exact fun hm => absurd hm Bool.false_ne_true
      | writesHeader => exact fun _ _ => rfl
      | _ => exact h

/-- If the law is kept, a mux thread means a header. -/
theorem header_of_mux
    (run : Run streamerStep .create tr s)
    (hlaw : MuxedOpened tr) :
    s.mux_id = true → s.pDelcnt = true → s.header = true := by
  induction run with
  | nil =>
      simp [StreamerState.create]
  | snoc run step ih =>
      refine mux_step (streamerStep_move step) (ih (muxedOpened_of_snoc hlaw)) ?_
      exact fun hmem => (hlaw _ (List.mem_append_right _ (List.mem_singleton_self _)) hmem).2

/-- A start of the client that comes too early finds no header. -/
theorem unopened_start
    {action : StreamerAction} {es : List StreamerEvent} {t : StreamerState}
    (h : HandleInv s) (move : StreamerMove s action t es)
    (hearly : StartsUnopened ⟨s, action, es, t⟩) :
    s.pDelcnt = true ∧ s.header = false ∧ es = s.koalaMuxerStart.2 := by
  cases move with
  | client allocated move =>
      obtain ⟨hc, hearly⟩ := hearly
      have hunopened : ¬InitOpened s := fun hi =>
        hearly.elim (fun hb => by simp [hi.1] at hb) (Int.not_lt.mpr hi.2.2)
      have hdelcnt := h.clientLocks hc
      refine ⟨hdelcnt, h.unwritten hdelcnt hunopened, ?_⟩
      cases move with
      | startsMux => rfl
      | _ => simp_all
  | _ => exact hearly.elim

/--
The mux thread is created on an open output only, if and only if no start of the client
takes the mutex before `koala_muxer_init_open` does or after it has failed.
-/
theorem mux_thread_opened_iff
    (run : Run streamerStep .create tr s)
    (hrelease : .called .release ∉ eventsOf tr) :
    MuxedOpened tr ↔ ∀ τ ∈ tr, ¬StartsUnopened τ := by
  constructor
  · intro hlaw τ hτ hearly
    obtain ⟨before, hpre, hrun⟩ := run.prefix_of_mem τ hτ
    have hbefore := (List.prefix_append before [τ]).trans hpre
    have hrel : .called .release ∉ eventsOf before :=
      fun h => hrelease (mem_eventsOf_mono hbefore h)
    have hinv := HandleInv.of_run hrun hrel
    obtain ⟨hdelcnt, hheader, hevents⟩ :=
      unopened_start hinv (streamerStep_move (run.valid τ hτ)) hearly
    rcases koalaMuxerStart_creates τ.src with hmux | hmem
    · have hwritten := header_of_mux hrun (fun τ' hτ' => hlaw τ' (hbefore.subset hτ'))
        hmux hdelcnt
      exact Bool.false_ne_true (hheader.symm.trans hwritten)
    · rw [← hevents] at hmem
      exact Bool.false_ne_true (hheader.symm.trans (hlaw τ hτ hmem).2)
  · intro hnone τ hτ hmem
    obtain ⟨before, hpre, hrun⟩ := run.prefix_of_mem τ hτ
    have hbefore := (List.prefix_append before [τ]).trans hpre
    have hrel : .called .release ∉ eventsOf before :=
      fun h => hrelease (mem_eventsOf_mono hbefore h)
    exact opened_of_created (.of_run hrun hrel) (.of_run hrun) (not_releasing hrun hrel)
      (streamerStep_move (run.valid τ hτ)) (hnone τ hτ) hmem

end Runs

/-- The client starts as soon as the header is written. -/
theorem mux_thread_opened_iff_prepared :
    ∃ (tr : List StreamerTransition) (s : StreamerState),
      Run streamerStep .create tr s ∧ .muxCreated ∈ eventsOf tr ∧ MuxedOpened tr := by
  obtain ⟨tr, s, run, hrelease, hmem, hnone⟩ :=
    Run.exists_of_exec streamerStep .create
      (List.flatten
        [[.call .prepare, .client true, .client true],
          List.replicate 11 (.prepare ⟨0, false, 0⟩),
          [.call .start, .client true, .client true]])
      (fun r =>
        .called .release ∉ eventsOf r.1 ∧ .muxCreated ∈ eventsOf r.1 ∧
        ∀ τ ∈ r.1, ¬StartsUnopened τ)
      (by decide +kernel)
  exact ⟨tr, s, run, hmem, (mux_thread_opened_iff run hrelease).mpr hnone⟩

/-- The client starts when `muxer_open` has the handle: the mux thread is created
before there is an output context. -/
theorem mux_thread_opened_fails_early :
    ∃ (tr : List StreamerTransition) (s : StreamerState),
      Run streamerStep .create tr s ∧
      .called .release ∉ eventsOf tr ∧ s.oc = false ∧ s.muxRunning = true ∧
      ¬MuxedOpened tr :=
  Run.exists_of_exec streamerStep .create
    (List.flatten
      [[.call .prepare, .client true, .client true],
        List.replicate 3 (.prepare ⟨0, false, 0⟩),
        [.call .start, .client true, .client true]])
    (fun r =>
      .called .release ∉ eventsOf r.1 ∧ r.2.oc = false ∧ r.2.muxRunning = true ∧
      ¬MuxedOpened r.1)
    (by decide +kernel)

end KoalaStreamer
