import KoalaStreamer.Library.RunRules
import KoalaStreamer.OptionUpdate
import Mathlib.Algebra.BigOperators.Group.List.Basic

/-!
# MediaStreamer.c: every call returns

The client waits for `apiMutex`, for the prepare thread and for the mux thread; the
prepare thread waits for `apiMutex`, which `koala_muxer_end` holds while it waits for the
mux thread.  Nobody waits in a circle, and neither the client nor the prepare thread goes on
by itself: what a call makes them do is known when it is made, from the number of options
that `muxer_open` may still have to walk over.

The passes of the mux thread are not part of the machine: it may return at any time, and
that it does return when `koala_muxer_end` has set `end` is assumed, not proved.

Main result: `streamer_calls_return`: the client and the prepare thread take no more steps
than the calls bring, and where neither can go on, every call has returned, or
`koala_muxer_end` waits for the mux thread.
-/

namespace KoalaStreamer

open CStrings EventMachine

/-! ## What is left to do -/

section StepsLeft

/-- The steps that the prepare thread may still take; `opts` is the number of options. -/
def PreparePc.stepsLeft (opts : ℕ) : PreparePc → ℕ
  | .notCreated => 0
  | .testing => 17 + 2 * opts
  | .probing => 16 + 2 * opts
  | .opening => 15 + 2 * opts
  | .readingOpts => 14 + 2 * opts
  | .walking left => 13 + 2 * left
  | .applying left _ _ => 14 + 2 * left
  | .registering => 12
  | .initLocking => 11
  | .initAllocating => 10
  | .initAdding => 9
  | .initConnecting => 8
  | .initWriting => 7
  | .initFailing => 6
  | .statusStoring => 5
  | .notifying _ => 4
  | .startStoring => 3
  | .startGuarding => 2
  | .startLocking => 1
  | .exited => 0

/-- The steps of the call going on, with those of the prepare thread that it creates and
of a walk over the option that it adds. -/
def ClientPc.stepsLeft (opts : ℕ) : ClientPc → ℕ
  | .idle => 0
  | .prepareStoring => 19 + 2 * opts
  | .prepareCreating => 18 + 2 * opts
  | .startGuarding => 2
  | .startLocking => 1
  | .stopTesting => 9
  | .stopJoining => 8
  | .endGuarding => 7
  | .endLocking => 6
  | .endJoining => 5
  | .closeGuarding _ => 4
  | .closeLocking _ => 3
  | .closeClearing _ => 2
  | .stopStoring => 1
  | .setoptFreeing _ _ => 4
  | .setoptWriting _ _ => 3
  | .releaseFreeing => 1
  | .released => 0

/-- The steps that the client and the prepare thread may still take before the next
call. -/
def StreamerState.stepsLeft (s : StreamerState) : ℕ :=
  s.client.stepsLeft s.opts.length + s.prepare.stepsLeft s.opts.length

/-- The steps that a call brings, its first one included. -/
def ClientCall.steps (opts : ℕ) : ClientCall → ℕ
  | .prepare => 20 + 2 * opts
  | .start => 3
  | .stop => 10
  | .setopt _ _ => 5
  | .release => 5

/-- What a step of a run brings. -/
def stepsBrought (τ : StreamerTransition) : ℕ :=
  match τ.action with
  | .call call => call.steps τ.src.opts.length
  | _ => 0

/-- The client may make its next call. -/
def StreamerAction.isCall : StreamerAction → Bool
  | .call _ => true
  | _ => false

/-- A step of the client or of the prepare thread, the calls included. -/
def ownStep (τ : StreamerTransition) : Bool :=
  match τ.action with
  | .muxReturns => false
  | _ => true

/-- Every call has returned and the prepare thread has ended. -/
def StreamerState.Resting (s : StreamerState) : Prop :=
  (s.client = .idle ∨ s.client = .released) ∧
  (s.prepare = .notCreated ∨ s.prepare = .exited)

end StepsLeft

section Steps

variable {s t : StreamerState} {es : List StreamerEvent} {a : StreamerAction}

/-- `setOpt` links one node at most. -/
theorem writeOpt_length
    (s : StreamerState) (key value : CString) (allocated : Bool) :
    (writeOpt s key value allocated).2.opts.length ≤ s.opts.length + 1 := by
  simp only [writeOpt]
  split
  · exact Nat.le_succ _
  · simp only [setOpt]
    split
    · split <;> simp
    · rw [updateOpt_length]
      exact Nat.le_succ _

/-- One option more is walked over in two steps. -/
theorem PreparePc.stepsLeft_mono
    (pc : PreparePc) {n n' : ℕ} (h : n' ≤ n + 1) :
    pc.stepsLeft n' ≤ pc.stepsLeft n + 2 := by
  cases pc <;> simp only [PreparePc.stepsLeft] <;> omega

/-- The nodes that are left. -/
theorem nodesLeft_length
    (s : StreamerState) (left : ℕ) :
    (s.nodesLeft left).length ≤ left := by
  rw [StreamerState.nodesLeft, List.length_drop]
  omega

theorem ClientMove.stepsLeft
    {allocated : Bool} (move : ClientMove s allocated t es) :
    t.stepsLeft + 1 ≤ s.stepsLeft := by
  -- the client goes from one place to a lower one
  have hgoes : ∀ {before pc : ClientPc} {mid : StreamerState}, s.client = before →
      mid.opts = s.opts → mid.prepare = s.prepare →
      pc.stepsLeft s.opts.length + 1 ≤ before.stepsLeft s.opts.length →
      (mid.setClient pc).stepsLeft + 1 ≤ s.stepsLeft := by
    intro before pc mid hbefore hopts hprepare hle
    rw [StreamerState.stepsLeft, StreamerState.stepsLeft, hbefore]
    simp only [StreamerState.setClient]
    rw [hopts, hprepare]
    omega
  cases move with
  | storesPreparing h =>
      exact hgoes h rfl rfl (by simp only [ClientPc.stepsLeft]; omega)
  | creates h =>
      rw [StreamerState.stepsLeft, StreamerState.stepsLeft, h]
      simp only [StreamerState.setClient, StreamerState.setPrepare, ClientPc.stepsLeft,
        PreparePc.stepsLeft]
      omega
  | startsMux h hfree =>
      obtain ⟨_, _, heq⟩ := koalaMuxerStart_eq s
      rw [heq]
      exact hgoes h rfl rfl (Nat.le_refl _)
  | passesStart h hopen =>
      exact hgoes h rfl rfl (Nat.le_refl _)
  | passesStop h hlt =>
      exact hgoes h rfl rfl (Nat.le_refl _)
  | skipsStop h hge =>
      exact hgoes h rfl rfl (by simp [ClientPc.stepsLeft])
  | joins h hend =>
      exact hgoes h rfl rfl (Nat.le_refl _)
  | skipsClose release h =>
      exact hgoes h rfl rfl (by cases release <;> simp [afterClose, ClientPc.stepsLeft])
  | clears release h =>
      exact hgoes h rfl rfl (by cases release <;> simp [afterClose, ClientPc.stepsLeft])
  | freesValue key value h =>
      obtain ⟨_, heq⟩ := freeValue_eq s key
      rw [heq]
      exact hgoes h rfl rfl (Nat.le_refl _)
  | writesOpt key value h =>
      have hprepare := s.prepare.stepsLeft_mono (writeOpt_length s key value allocated)
      obtain ⟨_, _, heq⟩ := writeOpt_eq s key value allocated
      rw [heq] at hprepare ⊢
      rw [StreamerState.stepsLeft, StreamerState.stepsLeft, h]
      simp only [StreamerState.setClient, ClientPc.stepsLeft] at hprepare ⊢
      omega
  | _ =>
      rename_i h
      exact hgoes h rfl rfl (by simp [ClientPc.stepsLeft])

theorem PrepareMove.stepsLeft
    (move : PrepareMove s t es) :
    t.stepsLeft + 1 ≤ s.stepsLeft := by
  have hgoes : ∀ {before pc : PreparePc} {mid : StreamerState}, s.prepare = before →
      mid.opts = s.opts → mid.client = s.client →
      pc.stepsLeft s.opts.length + 1 ≤ before.stepsLeft s.opts.length →
      (mid.setPrepare pc).stepsLeft + 1 ≤ s.stepsLeft := by
    intro before pc mid hbefore hopts hclient hle
    rw [StreamerState.stepsLeft, StreamerState.stepsLeft, hbefore]
    simp only [StreamerState.setPrepare]
    rw [hopts, hclient]
    omega
  cases move with
  | walks left opt opts h hleft =>
      have hlength := nodesLeft_length s left
      rw [hleft, List.length_cons] at hlength
      refine hgoes h rfl rfl ?_
      simp only [PreparePc.stepsLeft]
      omega
  | endsWalk left h hleft =>
      refine hgoes h rfl rfl ?_
      simp only [PreparePc.stepsLeft]
      omega
  | startsMux h =>
      obtain ⟨_, _, heq⟩ := koalaMuxerStart_eq s
      rw [heq]
      exact hgoes h rfl rfl (Nat.le_refl _)
  | adds nofile h =>
      exact hgoes h rfl rfl (by cases nofile <;> simp [PreparePc.stepsLeft])
  | notifies event h =>
      exact hgoes h rfl rfl (by cases event <;> simp [PreparePc.stepsLeft])
  | probeFails ret h hret =>
      exact hgoes h rfl rfl (by simp only [PreparePc.stepsLeft]; omega)
  | appliesTimeout left key value freed h hkey =>
      exact hgoes h rfl rfl (by simp only [PreparePc.stepsLeft]; omega)
  | appliesOther left key value h hkey =>
      exact hgoes h rfl rfl (by simp only [PreparePc.stepsLeft]; omega)
  | addFails h =>
      exact @hgoes _ .initFailing { s with oc := false, ret := -1 } h rfl rfl
        (by simp [PreparePc.stepsLeft])
  | connectFails h =>
      exact @hgoes _ .initFailing { s with oc := false, ret := -1 } h rfl rfl
        (by simp [PreparePc.stepsLeft])
  | headerFails h =>
      exact @hgoes _ .initFailing { s with oc := false, ret := -1 } h rfl rfl
        (by simp [PreparePc.stepsLeft])
  | storesPrepared h hret =>
      exact hgoes h rfl rfl (Nat.le_refl _)
  | storesError h hret =>
      exact hgoes h rfl rfl (Nat.le_refl _)
  | passesStart h hopen =>
      exact hgoes h rfl rfl (Nat.le_refl _)
  | _ =>
      rename_i h
      exact hgoes h rfl rfl (by simp only [PreparePc.stepsLeft]; omega)

/-- A call brings what it lets the threads do. -/
theorem callStep_stepsLeft
    (s : StreamerState) (call : ClientCall) :
    (callStep s call).stepsLeft + 1 ≤ s.stepsLeft + call.steps s.opts.length := by
  have hgoes : ∀ {pc : ClientPc} {mid : StreamerState}, mid.opts = s.opts →
      mid.prepare = s.prepare →
      pc.stepsLeft s.opts.length + 1 ≤ call.steps s.opts.length →
      (mid.setClient pc).stepsLeft + 1 ≤ s.stepsLeft + call.steps s.opts.length := by
    intro pc mid hopts hprepare hle
    rw [StreamerState.stepsLeft, StreamerState.stepsLeft]
    simp only [StreamerState.setClient]
    rw [hopts, hprepare]
    omega
  cases call with
  | prepare =>
      refine hgoes rfl rfl ?_
      split <;> simp only [ClientPc.stepsLeft, ClientCall.steps] <;> omega
  | start =>
      exact hgoes rfl rfl (Nat.le_refl _)
  | stop =>
      refine hgoes rfl rfl ?_
      split <;> simp [ClientPc.stepsLeft, ClientCall.steps]
  | setopt key value =>
      refine hgoes rfl rfl ?_
      split <;> simp [ClientPc.stepsLeft, ClientCall.steps]
  | release =>
      refine hgoes rfl rfl ?_
      split <;> simp [ClientPc.stepsLeft, ClientCall.steps]

/-- A step is paid for by what is left to do or by what its call brings; the mux thread
leaves the others what they have to do. -/
theorem streamerStep_paid
    (h : streamerStep s a = some (t, es)) :
    t.stepsLeft + (if ownStep ⟨s, a, es, t⟩ then 1 else 0) ≤
      s.stepsLeft + stepsBrought ⟨s, a, es, t⟩ := by
  cases a with
  | call call =>
      simp only [streamerStep, Option.ite_none_right_eq_some, Option.some.injEq,
        Prod.mk.injEq] at h
      obtain ⟨-, rfl, rfl⟩ := h
      exact callStep_stepsLeft s call
  | client allocated =>
      exact (clientStep_move h).stepsLeft
  | prepare answer =>
      exact (prepareStep_move h).stepsLeft
  | muxReturns =>
      simp only [streamerStep, Option.ite_none_right_eq_some, Option.some.injEq,
        Prod.mk.injEq] at h
      obtain ⟨-, rfl, rfl⟩ := h
      exact Nat.le_refl _

end Steps

/-! ## Who can go on -/

section Stuck

variable {s t : StreamerState} {es : List StreamerEvent}

/-- Neither the client nor the prepare thread can go on without a new call. -/
def StreamerState.Stuck (s : StreamerState) : Prop :=
  (∀ allocated, streamerStep s (.client allocated) = none) ∧
  ∀ answer, streamerStep s (.prepare answer) = none

/-- The places of the prepare thread where it takes `apiMutex`. -/
def PreparePc.locks : PreparePc → Bool
  | .applying _ _ _ => true
  | .initLocking => true
  | .startLocking => true
  | _ => false

/-- `koala_muxer_end` waits for the mux thread, with `apiMutex`; the prepare thread has
ended or waits for the mutex. -/
structure StreamerState.WaitsForMux (s : StreamerState) : Prop where
  client : s.client = .endJoining
  mux : s.mux_id = true ∧ s.muxRunning = true
  prepare : s.prepare = .notCreated ∨ s.prepare = .exited ∨ s.prepare.locks = true

/-- Besides `koala_muxer_init_open`, only `koala_muxer_end` keeps `apiMutex` over steps. -/
theorem endJoining_of_locked
    (h : s.apiLocked = true)
    (hpc : s.prepare = .notCreated ∨ s.prepare = .exited ∨ s.prepare.locks = true) :
    s.client = .endJoining := by
  cases hc : s.client <;> cases hp : s.prepare <;>
    simp_all [StreamerState.apiLocked, PreparePc.locks]

/-- The prepare thread waits for `apiMutex` only. -/
theorem prepareStep_none
    {answer : PrepareAnswer} (h : prepareStep s answer = none) :
    s.prepare = .notCreated ∨ s.prepare = .exited ∨
    (s.prepare.locks = true ∧ s.apiLocked = true) := by
  cases hpc : s.prepare <;> simp only [prepareStep, hpc] at h
  case notCreated =>
    exact .inl rfl
  case exited =>
    exact .inr (.inl rfl)
  case applying left key value =>
    refine .inr (.inr ⟨rfl, ?_⟩)
    split at h
    · assumption
    · split at h <;> cases h
  case initLocking =>
    refine .inr (.inr ⟨rfl, ?_⟩)
    split at h
    · assumption
    · cases h
  case startLocking =>
    refine .inr (.inr ⟨rfl, ?_⟩)
    split at h
    · assumption
    · cases h
  all_goals
    first
    | cases h
    | split at h <;> cases h

/-- The client waits for `apiMutex`, for the prepare thread or, in `koala_muxer_end`, for
the mux thread. -/
theorem clientStep_none
    {allocated : Bool} (h : clientStep s allocated = none) :
    s.client = .idle ∨ s.client = .released ∨
    (s.client ≠ .endJoining ∧ s.apiLocked = true) ∨
    (s.prepare ≠ .notCreated ∧ s.prepare ≠ .exited ∧ s.client ≠ .endJoining) ∨
    (s.client = .endJoining ∧ s.mux_id = true ∧ s.muxRunning = true) := by
  cases hpc : s.client <;>
    simp only [clientStep, hpc, ite_eq_left_iff, ite_eq_right_iff, reduceCtorEq] at h
  all_goals simp_all

/-- Nobody waits in a circle: where neither thread can go on, nothing is left to do, or it
is the mux thread that has to return. -/
theorem stuck_iff
    (s : StreamerState) :
    s.Stuck ↔ s.Resting ∨ s.WaitsForMux := by
  constructor
  · rintro ⟨hclient, hprepare⟩
    have hclient := clientStep_none (hclient true)
    have hprepare := prepareStep_none (hprepare ⟨0, false, 0⟩)
    have hplace : s.prepare = .notCreated ∨ s.prepare = .exited ∨
        s.prepare.locks = true := by
      rcases hprepare with hpc | hpc | ⟨hlocks, -⟩
      · exact .inl hpc
      · exact .inr (.inl hpc)
      · exact .inr (.inr hlocks)
    by_cases hends : s.client = .endJoining
    · refine .inr ⟨hends, ?_, hplace⟩
      rcases hclient with hpc | hpc | ⟨hnot, -⟩ | ⟨-, -, hnot⟩ | ⟨-, hmux⟩
      · cases hends.symm.trans hpc
      · cases hends.symm.trans hpc
      · exact absurd hends hnot
      · exact absurd hends hnot
      · exact hmux
    · -- nobody else keeps the mutex
      have hfree : s.apiLocked = false := by
        by_contra hlocked
        exact hends (endJoining_of_locked (by simpa using hlocked) hplace)
      have hended : s.prepare = .notCreated ∨ s.prepare = .exited := by
        rcases hprepare with hpc | hpc | ⟨-, hlocked⟩
        · exact .inl hpc
        · exact .inr hpc
        · exact absurd (hfree.symm.trans hlocked) Bool.false_ne_true
      refine .inl ⟨?_, hended⟩
      rcases hclient with hpc | hpc | ⟨-, hlocked⟩ | ⟨hnot, hnot', -⟩ | ⟨hpc, -⟩
      · exact .inl hpc
      · exact .inr hpc
      · exact absurd (hfree.symm.trans hlocked) Bool.false_ne_true
      · exact absurd hended (by simp [hnot, hnot'])
      · exact absurd hpc hends
  · rintro (⟨hclient, hprepare⟩ | ⟨hclient, ⟨hid, hrunning⟩, hprepare⟩)
    · constructor
      · intro allocated
        rcases hclient with hpc | hpc <;> simp [streamerStep, clientStep, hpc]
      · intro answer
        rcases hprepare with hpc | hpc <;> simp [streamerStep, prepareStep, hpc]
    · have hlocked : s.apiLocked = true := by simp [StreamerState.apiLocked, hclient]
      constructor
      · intro allocated
        simp [streamerStep, clientStep, hclient, hid, hrunning]
      · intro answer
        cases hpc : s.prepare <;>
          simp_all [streamerStep, prepareStep, PreparePc.locks]

/-- When the mux thread returns, the call that waits for it goes on. -/
theorem StreamerState.WaitsForMux.released
    (h : s.WaitsForMux) (hstep : streamerStep s .muxReturns = some (t, es)) :
    ¬ t.Stuck := by
  simp only [streamerStep, Option.ite_none_right_eq_some, Option.some.injEq,
    Prod.mk.injEq] at hstep
  obtain ⟨-, rfl, -⟩ := hstep
  intro hstuck
  have hends := hstuck.1 true
  simp [streamerStep, clientStep, h.client] at hends

end Stuck

/-- The steps of a run are paid for by what there was and what its calls bring. -/
theorem run_stepsLeft
    {tr : List StreamerTransition} {s₀ s : StreamerState} (run : Run streamerStep s₀ tr s) :
    s.stepsLeft + tr.countP ownStep ≤ s₀.stepsLeft + (tr.map stepsBrought).sum :=
  (Run.amortized (fun _ => True) StreamerState.stepsLeft ownStep stepsBrought
    (fun _ hstep => ⟨trivial, streamerStep_paid hstep⟩) run trivial).2

/-- Without a call, a step brings nothing. -/
theorem stepsBrought_of_not_call
    {tr : List StreamerTransition} (hcalls : ∀ τ ∈ tr, τ.action.isCall = false) :
    (tr.map stepsBrought).sum = 0 := by
  refine List.sum_eq_zero fun n hn => ?_
  obtain ⟨τ, hmem, rfl⟩ := List.mem_map.mp hn
  have hcall := hcalls τ hmem
  simp only [stepsBrought]
  cases haction : τ.action <;> simp_all [StreamerAction.isCall]

end KoalaStreamer
