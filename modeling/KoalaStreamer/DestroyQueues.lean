import KoalaStreamer.ReadRouting
import KoalaStreamer.Shutdown

/-!
# MacRTMPStreamer.cpp: the frames left in the queues

The destructor of a queue releases what is left in it.  An encoded frame goes
back through the thread object that encoded it, and `destroyMediaThread` deletes
an encoder thread before the queues of this thread.

The other threads are idle: their steps change neither a queue nor a frame.  What
the queues hold is arbitrary.

Main results:
* `mainStep_destroyInv`: what `main` has deleted, and which frames it has released,
  at each point of `destroyMediaThread`;
* `released_while_owned_iff`: when every encoded frame is released before its
  thread object is deleted.
-/

namespace KoalaStreamer

open EventMachine

section Destroy

variable {cfg : StreamerConfig} {lib : LibAv} {s₀ s s' : ShutdownState}
  {tr : List ShutdownTransition}

/-- `main` enters `destroyMediaThread`. -/
structure EntersDestroy (cfg : StreamerConfig) (s : ShutdownState) : Prop where
  main : s.main = destroyMediaThread cfg
  deleted : s.deleted = []

/-- The step of another thread changes neither a queue nor a frame. -/
def OthersIdle (τ : ShutdownTransition) : Prop :=
  ∀ a, τ.action = .pipeline a →
    τ.dst.pipeline.queue = τ.src.pipeline.queue ∧
    τ.dst.pipeline.heap = τ.src.pipeline.heap

/-- `initMediaThread` has created the object. -/
def StreamerConfig.has (cfg : StreamerConfig) (o : MediaObject) : Prop :=
  cfg.hasQueue o.encoder.input = true

/-- What the destructor of a queue releases in the step. -/
def destructorReleases (τ : ShutdownTransition) : List (QueueId × FrameId) :=
  match τ.action, τ.src.main with
  | .main, .cleanReleasing q pFrame => [(q, pFrame)]
  | _, _ => []

/-- Every encoded frame that a destructor releases goes back through a thread
object that is still there. -/
def ReleasedWhileOwned (tr : List ShutdownTransition) : Prop :=
  ∀ τ ∈ tr, ∀ x ∈ destructorReleases τ, ∀ e,
    (τ.src.pipeline.heap x.2).EncodedBy e → .thread e ∉ τ.src.deleted

/-- No queue holds a frame whose thread object is deleted before the queue. -/
def OwnersOutlive (cfg : StreamerConfig) (s : ShutdownState) : Prop :=
  ∀ q, cfg.has (.queue q) → ∀ f ∈ (s.pipeline.queue q).contents,
    ∀ e, (s.pipeline.heap f).EncodedBy e → cfg.has (.thread e) →
      (MediaObject.queue q).stage < (MediaObject.thread e).stage

/-- The queues hold what the program puts into them. -/
structure QueuesFilled (s : ShutdownState) : Prop where
  raw : ∀ e, ∀ f ∈ (s.pipeline.queue (EncoderId.input e)).contents, ∀ e',
    ¬ (s.pipeline.heap f).EncodedBy e'
  encoded : ∀ e, ∀ f ∈ (s.pipeline.queue (EncoderId.output e)).contents,
    (s.pipeline.heap f).EncodedBy e

/-! ### Where main is -/

/-- The object that `main` is about to delete. -/
def MainPc.object : MainPc → Option MediaObject
  | .stopping e => some (.thread e)
  | .joining e => some (.thread e)
  | .deletingThread e => some (.thread e)
  | .destroying q => some (.queue q)
  | .cleaning q => some (.queue q)
  | .cleanReleasing q _ => some (.queue q)
  | _ => none

/-- The frame that `main` has taken out of the queue and not released. -/
def MainPc.handOf (q : QueueId) : MainPc → List FrameId
  | .cleanReleasing q' pFrame => if q' = q then [pFrame] else []
  | _ => []

/-- What has been released from the queue. -/
def releasedFrom (q : QueueId) (tr : List ShutdownTransition) : List FrameId :=
  ((tr.flatMap destructorReleases).filter fun x => x.1 = q).map Prod.snd

/-- What holds in `destroyMediaThread`, when it was entered in `s₀`. -/
structure DestroyInv
    (cfg : StreamerConfig) (s₀ : ShutdownState) (tr : List ShutdownTransition)
    (s : ShutdownState) : Prop where
  entered : s.main.leftLoop = true
  here : ∀ o, s.main.object = some o → cfg.has o
  deleted : ∀ o, o ∈ s.deleted ↔ cfg.has o ∧ o.stage < s.main.stage
  heap : s.pipeline.heap = s₀.pipeline.heap
  content : ∀ q, releasedFrom q tr ++ s.main.handOf q ++
    (s.pipeline.queue q).contents = (s₀.pipeline.queue q).contents
  empty : ∀ q, .queue q ∈ s.deleted → (s.pipeline.queue q).contents = []

theorem stage_le
    (o : MediaObject) : o.stage ≤ 6 := by
  cases o with
  | thread e => cases e <;> decide
  | queue q => cases q <;> decide

theorem stage_injective
    {o o' : MediaObject} (h : o.stage = o'.stage) : o = o' := by
  rcases o with (_ | _) | (_ | _ | _ | _) <;>
    rcases o' with (_ | _) | (_ | _ | _ | _) <;>
    first | rfl | exact absurd h (by decide)

/-- What has been passed one stage later. -/
theorem stage_lt_succ
    (o o' : MediaObject) :
    o.stage < o'.stage + 1 ↔ o = o' ∨ o.stage < o'.stage := by
  constructor
  · intro h
    rcases Nat.lt_or_eq_of_le (Nat.le_of_lt_succ h) with hlt | heq
    · exact Or.inr hlt
    · exact Or.inl (stage_injective heq)
  · rintro (rfl | hlt)
    · exact Nat.lt_succ_self _
    · exact Nat.lt_succ_of_lt hlt

theorem stage_input_succ
    (e : EncoderId) :
    (MediaObject.queue e.input).stage = (MediaObject.thread e).stage + 1 := by
  cases e <;> rfl

/-- What `destroyMediaThread` has passed when it comes to the audio part. -/
theorem stage_lt_destroyAudio
    {o : MediaObject} (ho : cfg.has o) :
    o.stage < (destroyAudio cfg).stage ↔ o.stage < 4 := by
  simp only [destroyAudio]
  split
  · rfl
  · rename_i haudio
    have hle := stage_le o
    have hvideo : o.encoder = .mpThreadVE := by
      cases hencoder : o.encoder with
      | mpThreadVE =>
          rfl
      | mpThreadAE =>
          rw [StreamerConfig.has, hencoder] at ho
          exact absurd (of_decide_eq_true ho) haudio
    refine ⟨fun _ => ?_, fun _ => Nat.lt_succ_of_le hle⟩
    cases o with
    | thread e => cases e <;> first | decide | cases hvideo
    | queue q => cases q <;> first | decide | cases hvideo

theorem stage_lt_afterDelete
    {o : MediaObject} (ho : cfg.has o) (q : QueueId) :
    o.stage < (afterDelete cfg q).stage ↔
      o.stage < (MediaObject.queue q).stage + 1 := by
  cases q with
  | pVEQueue =>
      exact stage_lt_destroyAudio ho
  | _ =>
      rfl

theorem stage_of_object
    {pc : MainPc} {o : MediaObject} (h : pc.object = some o) :
    pc.stage = o.stage := by
  cases pc <;> simp only [MainPc.object] at h <;> cases h <;> rfl

theorem handOf_of_stage
    {pc : MainPc} (h : 7 ≤ pc.stage) (q : QueueId) : pc.handOf q = [] := by
  cases pc with
  | cleanReleasing q' pFrame =>
      exact absurd (h.trans (stage_le (.queue q'))) (by decide)
  | _ =>
      rfl

theorem leftLoop_of_object
    {pc : MainPc} {o : MediaObject} (h : pc.object = some o) :
    pc.leftLoop = true := by
  cases pc <;> first | rfl | cases h

theorem has_destroyAudio
    {o : MediaObject} (h : (destroyAudio cfg).object = some o) : cfg.has o := by
  simp only [destroyAudio] at h
  split at h
  · rename_i haudio
    obtain rfl := Option.some.inj h
    exact decide_eq_true haudio
  · cases h

theorem has_destroyMediaThread
    {o : MediaObject} (h : (destroyMediaThread cfg).object = some o) :
    cfg.has o := by
  simp only [destroyMediaThread] at h
  split at h
  · rename_i hvideo
    obtain rfl := Option.some.inj h
    exact decide_eq_true hvideo
  · exact has_destroyAudio h

theorem has_afterDelete
    {q : QueueId} {o : MediaObject} (hq : cfg.has (.queue q))
    (h : (afterDelete cfg q).object = some o) : cfg.has o := by
  cases q with
  | pVEQueue =>
      exact has_destroyAudio h
  | pYUVQueue =>
      obtain rfl := Option.some.inj h
      exact hq
  | pPCMQueue =>
      obtain rfl := Option.some.inj h
      exact hq
  | pAEQueue =>
      cases h

theorem handOf_destroyAudio
    (cfg : StreamerConfig) (q : QueueId) : (destroyAudio cfg).handOf q = [] := by
  simp only [destroyAudio]
  split <;> rfl

theorem handOf_afterDelete
    (cfg : StreamerConfig) (q q' : QueueId) :
    (afterDelete cfg q).handOf q' = [] := by
  cases q with
  | pVEQueue =>
      exact handOf_destroyAudio cfg q'
  | _ =>
      rfl

theorem destroyMediaThread_start
    (cfg : StreamerConfig) :
    (destroyMediaThread cfg).leftLoop = true ∧
    (∀ q, (destroyMediaThread cfg).handOf q = []) ∧
    ∀ o, cfg.has o → ¬ o.stage < (destroyMediaThread cfg).stage := by
  refine ⟨leftLoop_of_stage (stage_destroyMediaThread cfg), ?_⟩
  simp only [destroyMediaThread]
  split
  · refine ⟨fun _ => rfl, ?_⟩
    intro o _
    cases o with
    | thread e => cases e <;> decide
    | queue q => cases q <;> decide
  · rename_i hvideo
    refine ⟨handOf_destroyAudio cfg, ?_⟩
    intro o ho
    rw [stage_lt_destroyAudio ho]
    have haudio : o.encoder = .mpThreadAE := by
      cases hencoder : o.encoder with
      | mpThreadAE =>
          rfl
      | mpThreadVE =>
          rw [StreamerConfig.has, hencoder] at ho
          exact absurd (of_decide_eq_true ho) hvideo
    cases o with
    | thread e => cases e <;> first | decide | cases haudio
    | queue q => cases q <;> first | decide | cases haudio

/-! ### What a step of main keeps -/

theorem releasedFrom_snoc
    (q : QueueId) (tr : List ShutdownTransition) (τ : ShutdownTransition) :
    releasedFrom q (tr ++ [τ]) = releasedFrom q tr ++ releasedFrom q [τ] := by
  simp [releasedFrom]

theorem releasedFrom_of_nil
    {τ : ShutdownTransition} (h : destructorReleases τ = []) (q : QueueId) :
    releasedFrom q (tr ++ [τ]) = releasedFrom q tr := by
  rw [releasedFrom_snoc]
  simp [releasedFrom, h]

/-- `main` goes on without a frame, and has deleted `deleted`. -/
theorem DestroyInv.advance
    (pc : MainPc) {τ : ShutdownTransition} {deleted : List MediaObject}
    (hinv : DestroyInv cfg s₀ tr s)
    (hreleases : destructorReleases τ = [])
    (hbefore : ∀ q, s.main.handOf q = [])
    (hleft : pc.leftLoop = true)
    (hhere : ∀ o, pc.object = some o → cfg.has o)
    (hhand : ∀ q, pc.handOf q = [])
    (hdeleted : ∀ o, o ∈ deleted ↔ cfg.has o ∧ o.stage < pc.stage)
    (hempty : ∀ q, .queue q ∈ deleted → (s.pipeline.queue q).contents = [])
    (hs' : s'.main = pc ∧ s'.deleted = deleted ∧
      s'.pipeline.heap = s.pipeline.heap ∧ s'.pipeline.queue = s.pipeline.queue) :
    DestroyInv cfg s₀ (tr ++ [τ]) s' := by
  obtain ⟨hmain, hdel, hheap, hqueue⟩ := hs'
  refine ⟨?_, ?_, ?_, hheap.trans hinv.heap, ?_, ?_⟩
  · rw [hmain]
    exact hleft
  · rw [hmain]
    exact hhere
  · rw [hmain, hdel]
    exact hdeleted
  · intro q
    have hcontent := hinv.content q
    rw [hbefore q] at hcontent
    rw [releasedFrom_of_nil hreleases, hmain, hhand q, hqueue]
    exact hcontent
  · rw [hdel, hqueue]
    exact hempty

/-- `main` stays with its object. -/
theorem DestroyInv.stay
    {pc : MainPc} {τ : ShutdownTransition} {o : MediaObject}
    (hinv : DestroyInv cfg s₀ tr s)
    (hreleases : destructorReleases τ = [])
    (hbefore : ∀ q, s.main.handOf q = [])
    (hobject : s.main.object = some o) (hpc : pc.object = some o)
    (hhand : ∀ q, pc.handOf q = [])
    (hs' : s'.main = pc ∧ s'.deleted = s.deleted ∧
      s'.pipeline.heap = s.pipeline.heap ∧ s'.pipeline.queue = s.pipeline.queue) :
    DestroyInv cfg s₀ (tr ++ [τ]) s' := by
  refine hinv.advance pc hreleases hbefore (leftLoop_of_object hpc) ?_ hhand ?_
    hinv.empty hs'
  · intro o' ho'
    rw [← Option.some.inj (hpc.symm.trans ho')]
    exact hinv.here o hobject
  · intro o'
    rw [stage_of_object hpc, ← stage_of_object hobject]
    exact hinv.deleted o'

/-- After `destroyMediaThread`, `main` only waits and leaves. -/
theorem DestroyInv.goesOn
    (pc : MainPc) {τ : ShutdownTransition}
    (hinv : DestroyInv cfg s₀ tr s)
    (hreleases : destructorReleases τ = [])
    (hlate : 7 ≤ s.main.stage ∧ s.main.stage ≤ pc.stage)
    (hs' : s'.main = pc ∧ s'.deleted = s.deleted ∧
      s'.pipeline.heap = s.pipeline.heap ∧ s'.pipeline.queue = s.pipeline.queue) :
    DestroyInv cfg s₀ (tr ++ [τ]) s' := by
  obtain ⟨hlate, hle⟩ := hlate
  have hlate' : 7 ≤ pc.stage := hlate.trans hle
  refine hinv.advance pc hreleases (handOf_of_stage hlate)
    (leftLoop_of_stage (Nat.zero_lt_of_lt hlate')) ?_ (handOf_of_stage hlate') ?_
    hinv.empty hs'
  · intro o ho
    have hstage := stage_le o
    rw [stage_of_object ho] at hlate'
    omega
  · intro o
    have hstage := stage_le o
    rw [hinv.deleted o]
    exact and_congr_right fun _ => ⟨fun _ => by omega, fun _ => by omega⟩

/-- `main` deletes its object and goes on to the next one. -/
theorem DestroyInv.deletes
    (pc : MainPc) {τ : ShutdownTransition} {o : MediaObject}
    (hinv : DestroyInv cfg s₀ tr s)
    (hreleases : destructorReleases τ = [])
    (hbefore : ∀ q, s.main.handOf q = [])
    (hobject : s.main.object = some o)
    (hleft : pc.leftLoop = true)
    (hhere : ∀ o', pc.object = some o' → cfg.has o')
    (hhand : ∀ q, pc.handOf q = [])
    (hstage : ∀ o', cfg.has o' → (o'.stage < pc.stage ↔ o'.stage < o.stage + 1))
    (hempty : ∀ q, o = .queue q → (s.pipeline.queue q).contents = [])
    (hs' : s'.main = pc ∧ s'.deleted = o :: s.deleted ∧
      s'.pipeline.heap = s.pipeline.heap ∧ s'.pipeline.queue = s.pipeline.queue) :
    DestroyInv cfg s₀ (tr ++ [τ]) s' := by
  refine hinv.advance pc hreleases hbefore hleft hhere hhand ?_ ?_ hs'
  · intro o'
    rw [List.mem_cons, hinv.deleted o', stage_of_object hobject]
    constructor
    · rintro (rfl | ⟨hhas, hlt⟩)
      · have hhas := hinv.here o' hobject
        exact ⟨hhas, (hstage o' hhas).mpr (Nat.lt_succ_self _)⟩
      · exact ⟨hhas, (hstage o' hhas).mpr (Nat.lt_succ_of_lt hlt)⟩
    · rintro ⟨hhas, hlt⟩
      rcases (stage_lt_succ o' o).mp ((hstage o' hhas).mp hlt) with heq | hlt
      · exact Or.inl heq
      · exact Or.inr ⟨hhas, hlt⟩
  · intro q hq
    rcases List.mem_cons.mp hq with hq | hq
    · exact hempty q hq.symm
    · exact hinv.empty q hq

/-- The frame in hand has been released. -/
theorem DestroyInv.releases
    {q : QueueId} {f : FrameId} {es : List MediaObject}
    (hinv : DestroyInv cfg s₀ tr s)
    (hmain : s.main = .cleanReleasing q f)
    (hs' : s'.main = .cleaning q ∧ s'.deleted = s.deleted ∧
      s'.pipeline.heap = s.pipeline.heap ∧ s'.pipeline.queue = s.pipeline.queue) :
    DestroyInv cfg s₀ (tr ++ [⟨s, .main, es, s'⟩]) s' := by
  obtain ⟨hnext, hdel, hheap, hqueue⟩ := hs'
  have hobject : s.main.object = some (.queue q) := by rw [hmain]; rfl
  refine ⟨by rw [hnext]; rfl, ?_, ?_, hheap.trans hinv.heap, ?_, ?_⟩
  · rw [hnext]
    exact fun o ho => hinv.here o (hobject.trans ho)
  · rw [hnext, hdel]
    have hdeleted := hinv.deleted
    rw [stage_of_object hobject] at hdeleted
    exact hdeleted
  · intro q'
    have hcontent := hinv.content q'
    rw [hmain] at hcontent
    rw [releasedFrom_snoc, hnext, hqueue, ← hcontent]
    by_cases hq : q = q'
    · simp [releasedFrom, destructorReleases, hmain, MainPc.handOf, hq]
    · simp [releasedFrom, destructorReleases, hmain, MainPc.handOf, hq]
  · rw [hdel, hqueue]
    exact hinv.empty

/-- A frame is taken out of the queue. -/
theorem DestroyInv.takes
    (pc : MainPc) {q : QueueId} {contents : FiFo FrameId} {τ : ShutdownTransition}
    (hinv : DestroyInv cfg s₀ tr s)
    (hreleases : destructorReleases τ = [])
    (hmain : s.main = .cleaning q) (hpc : pc.object = some (.queue q))
    (htaken : pc.handOf q ++ contents.contents = (s.pipeline.queue q).contents)
    (hothers : ∀ q', q' ≠ q → pc.handOf q' = [])
    (hs' : s'.main = pc ∧ s'.deleted = s.deleted ∧
      s'.pipeline = s.pipeline.setQueue q contents) :
    DestroyInv cfg s₀ (tr ++ [τ]) s' := by
  obtain ⟨hnext, hdel, hpipeline⟩ := hs'
  have hobject : s.main.object = some (.queue q) := by rw [hmain]; rfl
  have hqueue : ∀ q', s'.pipeline.queue q' =
      if q' = q then contents else s.pipeline.queue q' := by
    intro q'
    rw [hpipeline]
    exact Function.update_apply _ _ _ _
  have hhere : ∀ q', .queue q' ∈ s.deleted → q' ≠ q := by
    rintro q' hq' rfl
    have hlt := ((hinv.deleted _).mp hq').2
    rw [stage_of_object hobject] at hlt
    exact Nat.lt_irrefl _ hlt
  refine ⟨?_, ?_, ?_, ?_, ?_, ?_⟩
  · rw [hnext]
    exact leftLoop_of_object hpc
  · rw [hnext]
    exact fun o ho => hinv.here o (hobject.trans (hpc.symm.trans ho))
  · rw [hnext, hdel, stage_of_object hpc, ← stage_of_object hobject]
    exact hinv.deleted
  · rw [hpipeline]
    exact hinv.heap
  · intro q'
    have hcontent := hinv.content q'
    rw [hmain, show (MainPc.cleaning q).handOf q' = [] from rfl,
      List.append_nil] at hcontent
    rw [releasedFrom_of_nil hreleases, hnext, hqueue, ← hcontent]
    by_cases hq : q' = q
    · subst hq
      rw [if_pos rfl, List.append_assoc, htaken]
    · rw [if_neg hq, hothers q' hq, List.append_nil]
  · intro q' hq'
    rw [hdel] at hq'
    rw [hqueue, if_neg (hhere q' hq')]
    exact hinv.empty q' hq'

/-- A step of `main` keeps what holds in `destroyMediaThread`. -/
theorem mainStep_destroyInv
    {es : List MediaObject}
    (hinv : DestroyInv cfg s₀ tr s)
    (hstep : mainStep cfg s = some s') :
    DestroyInv cfg s₀ (tr ++ [⟨s, .main, es, s'⟩]) s' := by
  have hreleases : (∀ q f, s.main ≠ .cleanReleasing q f) →
      destructorReleases ⟨s, .main, es, s'⟩ = [] := by
    intro hne
    cases hmain : s.main with
    | cleanReleasing q f =>
        exact absurd hmain (hne q f)
    | _ =>
        simp [destructorReleases, hmain]
  have hinLoop : s.main.leftLoop = false → False :=
    fun h => Bool.false_ne_true (h.symm.trans hinv.entered)
  cases mainStep_case hstep with
  | prepares hmain =>
      exact (hinLoop (by rw [hmain]; rfl)).elim
  | waits hmain hstop =>
      exact (hinLoop (by rw [hmain]; rfl)).elim
  | begins hmain hstop =>
      exact (hinLoop (by rw [hmain]; rfl)).elim
  | stops e hmain hstatus =>
      exact hinv.stay (o := .thread e) (hreleases (by simp [hmain]))
        (by simp [hmain, MainPc.handOf]) (by rw [hmain]; rfl) rfl
        (fun _ => rfl) ⟨rfl, rfl, rfl, rfl⟩
  | leaves e hmain hstatus =>
      exact hinv.stay (o := .thread e) (hreleases (by simp [hmain]))
        (by simp [hmain, MainPc.handOf]) (by rw [hmain]; rfl) rfl
        (fun _ => rfl) ⟨rfl, rfl, rfl, rfl⟩
  | joins e hmain hexited =>
      exact hinv.stay (o := .thread e) (hreleases (by simp [hmain]))
        (by simp [hmain, MainPc.handOf]) (by rw [hmain]; rfl) rfl
        (fun _ => rfl) ⟨rfl, rfl, rfl, rfl⟩
  | deletesThread e hmain =>
      have hobject : s.main.object = some (.thread e) := by rw [hmain]; rfl
      refine hinv.deletes (.destroying e.input) (hreleases (by simp [hmain]))
        (by simp [hmain, MainPc.handOf]) hobject rfl ?_ (fun _ => rfl) ?_
        (fun q hq => by cases hq) ⟨rfl, rfl, rfl, rfl⟩
      · intro o ho
        have hhas := hinv.here _ hobject
        rw [← Option.some.inj ho]
        cases e <;> exact hhas
      · intro o _
        rw [← stage_input_succ]
        rfl
  | destroys q hmain hlocked =>
      exact hinv.stay (o := .queue q) (hreleases (by simp [hmain]))
        (by simp [hmain, MainPc.handOf]) (by rw [hmain]; rfl) rfl
        (fun _ => rfl) ⟨rfl, rfl, rfl, rfl⟩
  | deletesQueue q hmain hpass =>
      have hobject : s.main.object = some (.queue q) := by rw [hmain]; rfl
      refine hinv.deletes (afterDelete cfg q) (hreleases (by simp [hmain]))
        (by simp [hmain, MainPc.handOf]) hobject ?_ ?_
        (handOf_afterDelete cfg q) (fun o ho => stage_lt_afterDelete ho q) ?_
        ⟨rfl, rfl, rfl, rfl⟩
      · exact leftLoop_of_stage (Nat.zero_lt_of_lt (stage_afterDelete cfg q))
      · exact fun o ho => has_afterDelete (hinv.here _ hobject) ho
      · rintro q' hq'
        obtain rfl := MediaObject.queue.inj hq'
        exact contents_of_cleanPass_none hpass
  | removes q p pFrame hmain hpass hremoved =>
      have hcontents := (cleanPass_contents hpass).1
      rw [hremoved] at hcontents
      refine hinv.takes (.cleanReleasing q pFrame) (hreleases (by simp [hmain]))
        hmain rfl ?_ ?_ ⟨rfl, rfl, rfl⟩
      · simpa [MainPc.handOf] using hcontents
      · intro q' hq'
        simp [MainPc.handOf, Ne.symm hq']
  | cleans q p hmain hpass hremoved =>
      have hcontents := (cleanPass_contents hpass).1
      rw [hremoved] at hcontents
      exact hinv.takes (.cleaning q) (hreleases (by simp [hmain])) hmain rfl
        hcontents (fun _ _ => rfl) ⟨rfl, rfl, rfl⟩
  | releases q pFrame hmain =>
      exact hinv.releases hmain
        ⟨rfl, rfl, mediaFrameRelease_heap _ _, (mediaFrameRelease_same _ _).1.queue⟩
  | joinsDevice hmain hexited =>
      exact hinv.goesOn .stoppingStreamer (hreleases (by simp [hmain]))
        (by rw [hmain]; decide) ⟨rfl, rfl, rfl, rfl⟩
  | stopsStreamer hmain =>
      exact hinv.goesOn .joiningPrepare (hreleases (by simp [hmain]))
        (by rw [hmain]; decide) ⟨rfl, rfl, rfl, rfl⟩
  | leavesStreamer hmain =>
      exact hinv.goesOn .done (hreleases (by simp [hmain]))
        (by rw [hmain]; decide) ⟨rfl, rfl, rfl, rfl⟩
  | joinsPrepare hmain hexited =>
      exact hinv.goesOn .joiningMux (hreleases (by simp [hmain]))
        (by rw [hmain]; decide) ⟨rfl, rfl, rfl, rfl⟩
  | joinsMux hmain hended =>
      exact hinv.goesOn .done (hreleases (by simp [hmain]))
        (by rw [hmain]; decide) ⟨rfl, rfl, rfl, rfl⟩

/-! ### Runs -/

/-- A step that touches neither a queue nor a frame leaves everything as it is. -/
theorem DestroyInv.idle
    {τ : ShutdownTransition}
    (hinv : DestroyInv cfg s₀ tr s)
    (hreleases : destructorReleases τ = [])
    (hmain : s'.main = s.main ∧ s'.deleted = s.deleted)
    (hqueue : s'.pipeline.queue = s.pipeline.queue)
    (hheap : s'.pipeline.heap = s.pipeline.heap) :
    DestroyInv cfg s₀ (tr ++ [τ]) s' := by
  obtain ⟨hmain, hdeleted⟩ := hmain
  refine ⟨?_, ?_, ?_, hheap.trans hinv.heap, ?_, ?_⟩
  · rw [hmain]
    exact hinv.entered
  · rw [hmain]
    exact hinv.here
  · rw [hmain, hdeleted]
    exact hinv.deleted
  · rw [hmain, hqueue]
    intro q
    rw [releasedFrom_of_nil hreleases]
    exact hinv.content q
  · rw [hdeleted, hqueue]
    exact hinv.empty

/-- The prepare thread touches neither a queue nor a frame. -/
theorem prepareThreadStep_idle
    {ok : Bool} (h : prepareThreadStep s ok = some s') :
    (s'.main = s.main ∧ s'.deleted = s.deleted) ∧
    s'.pipeline.queue = s.pipeline.queue ∧ s'.pipeline.heap = s.pipeline.heap := by
  cases prepareThreadStep_case h with
  | startsMux hpc =>
      simp only [ShutdownState.startMux]
      split <;> exact ⟨⟨rfl, rfl⟩, rfl, rfl⟩
  | _ =>
      exact ⟨⟨rfl, rfl⟩, rfl, rfl⟩

theorem entersDestroy_inv
    (hstart : EntersDestroy cfg s) : DestroyInv cfg s [] s := by
  obtain ⟨hmain, hdeleted⟩ := hstart
  obtain ⟨hrunning, hhand, hstage⟩ := destroyMediaThread_start cfg
  refine ⟨?_, ?_, ?_, rfl, ?_, ?_⟩
  · rw [hmain]
    exact hrunning
  · rw [hmain]
    exact fun o ho => has_destroyMediaThread ho
  · intro o
    rw [hdeleted, hmain]
    exact iff_of_false List.not_mem_nil fun h => hstage o h.1 h.2
  · intro q
    rw [hmain, hhand q]
    rfl
  · intro q hq
    rw [hdeleted] at hq
    cases hq

theorem run_destroyInv
    (hstart : EntersDestroy cfg s₀)
    (run : Run (shutdownStep cfg lib) s₀ tr s)
    (hidle : ∀ τ ∈ tr, OthersIdle τ) :
    DestroyInv cfg s₀ tr s := by
  refine Run.invariant_of OthersIdle (fun tr s => DestroyInv cfg s₀ tr s)
    (entersDestroy_inv hstart) ?_ run hidle
  intro tr s a es s' hinv hstep hquiet
  cases a with
  | main =>
      simp only [shutdownStep] at hstep
      cases hmain : mainStep cfg s with
      | none =>
          simp [hmain] at hstep
      | some t =>
          simp only [hmain, Option.some.injEq, Prod.mk.injEq] at hstep
          obtain ⟨rfl, -⟩ := hstep
          exact mainStep_destroyInv hinv hmain
  | typed key =>
      obtain ⟨t, htyped, -⟩ := Option.map_eq_some_iff.mp hstep
      have hleft := hinv.entered
      rw [(typedStep_case htyped).1] at hleft
      cases hleft
  | prepare ok =>
      obtain ⟨t, hprepare, hr⟩ := Option.map_eq_some_iff.mp hstep
      obtain ⟨rfl, -⟩ := Prod.mk.inj hr
      obtain ⟨hmain, hqueue, hheap⟩ := prepareThreadStep_idle hprepare
      exact hinv.idle rfl hmain hqueue hheap
  | pipeline a =>
      simp only [shutdownStep] at hstep
      split at hstep
      · cases hp : pipelineStep cfg lib s.pipeline a with
        | none =>
            simp [hp] at hstep
        | some r =>
            simp only [hp, Option.some.injEq, Prod.mk.injEq] at hstep
            obtain ⟨rfl, -⟩ := hstep
            obtain ⟨hqueue, hheap⟩ := hquiet a rfl
            exact hinv.idle rfl ⟨rfl, rfl⟩ hqueue hheap
      · cases hstep

theorem mem_destructorReleases
    {τ : ShutdownTransition} {q : QueueId} {f : FrameId}
    (h : (q, f) ∈ destructorReleases τ) :
    τ.src.main = .cleanReleasing q f := by
  simp only [destructorReleases] at h
  split at h
  · rename_i hmain
    obtain ⟨rfl, rfl⟩ := Prod.mk.inj (List.mem_singleton.mp h)
    exact hmain
  · cases h

/-- Where a destructor releases a frame, it was left in the queue, and the thread
object is there if it is deleted later. -/
theorem DestroyInv.releasing
    {q : QueueId} {f : FrameId}
    (hinv : DestroyInv cfg s₀ tr s) (hmain : s.main = .cleanReleasing q f) :
    cfg.has (.queue q) ∧ f ∈ (s₀.pipeline.queue q).contents ∧
    ∀ e, .thread e ∈ s.deleted ↔ cfg.has (.thread e) ∧
      (MediaObject.thread e).stage < (MediaObject.queue q).stage := by
  have hobject : s.main.object = some (.queue q) := by rw [hmain]; rfl
  refine ⟨hinv.here _ hobject, ?_, ?_⟩
  · rw [← hinv.content q, hmain]
    simp [MainPc.handOf]
  · intro e
    rw [hinv.deleted, stage_of_object hobject]

/-- When `destroyMediaThread` has ended, everything left in its queues has been
released. -/
theorem DestroyInv.ended
    (hinv : DestroyInv cfg s₀ tr s) (hend : 7 ≤ s.main.stage)
    {q : QueueId} (hq : cfg.has (.queue q)) {f : FrameId}
    (hf : f ∈ (s₀.pipeline.queue q).contents) :
    ∃ τ ∈ tr, (q, f) ∈ destructorReleases τ := by
  have hstage := stage_le (.queue q)
  have hdeleted : .queue q ∈ s.deleted :=
    (hinv.deleted _).mpr ⟨hq, by omega⟩
  rw [← hinv.content q, hinv.empty q hdeleted, handOf_of_stage hend, List.append_nil,
    List.append_nil] at hf
  obtain ⟨⟨q', f'⟩, hx, rfl⟩ := List.mem_map.mp hf
  obtain ⟨hmem, hxq⟩ := List.mem_filter.mp hx
  obtain rfl : q' = q := of_decide_eq_true hxq
  exact List.mem_flatMap.mp hmem

/-- For what the program puts into the queues, nobody's frames are outlived if no
encoded frame is left. -/
theorem ownersOutlive_iff
    (hfilled : QueuesFilled s) :
    OwnersOutlive cfg s ↔
      ∀ e, cfg.has (.thread e) → (s.pipeline.queue (EncoderId.output e)).contents = [] := by
  have hhas : ∀ e, cfg.has (.queue (EncoderId.output e)) ↔ cfg.has (.thread e) := by
    intro e
    cases e <;> rfl
  constructor
  · intro h e he
    refine List.eq_nil_iff_forall_not_mem.mpr fun f hf => ?_
    have hlt := h e.output ((hhas e).mpr he) f hf e (hfilled.encoded e f hf) he
    cases e <;> exact absurd hlt (by decide)
  · intro h q hq f hf e hencoded he
    have hinput : ∀ e', q ≠ EncoderId.input e' := by
      rintro e' rfl
      exact hfilled.raw e' f hf e hencoded
    have houtput : ∃ e', q = EncoderId.output e' := by
      cases q with
      | pYUVQueue => exact absurd rfl (hinput .mpThreadVE)
      | pPCMQueue => exact absurd rfl (hinput .mpThreadAE)
      | pVEQueue => exact ⟨.mpThreadVE, rfl⟩
      | pAEQueue => exact ⟨.mpThreadAE, rfl⟩
    obtain ⟨e', rfl⟩ := houtput
    rw [h e' ((hhas e').mp hq)] at hf
    cases hf

/--
For whatever the queues hold when `main` enters `destroyMediaThread`, while the
other threads are idle: if no queue that is deleted holds a frame whose thread
object is deleted before the queue, every encoded frame that a destructor
releases is released while its thread object is there.  When `destroyMediaThread`
has ended, this is so only in that case.  For what the program puts into the
queues the condition says that no encoded frame is left in them.
-/
theorem released_while_owned_iff
    (hstart : EntersDestroy cfg s₀)
    (run : Run (shutdownStep cfg lib) s₀ tr s)
    (hidle : ∀ τ ∈ tr, OthersIdle τ) :
    (OwnersOutlive cfg s₀ → ReleasedWhileOwned tr) ∧
    (7 ≤ s.main.stage → (ReleasedWhileOwned tr ↔ OwnersOutlive cfg s₀)) ∧
    (QueuesFilled s₀ → (OwnersOutlive cfg s₀ ↔
      ∀ e, cfg.has (.thread e) →
        (s₀.pipeline.queue (EncoderId.output e)).contents = [])) := by
  have hat : ∀ τ ∈ tr, ∃ before, DestroyInv cfg s₀ before τ.src := by
    intro τ hτ
    obtain ⟨before, hpre, hrun⟩ := run.prefix_of_mem τ hτ
    exact ⟨before, run_destroyInv hstart hrun fun τ' hτ' =>
      hidle τ' (hpre.subset (List.mem_append_left _ hτ'))⟩
  have hsafe : OwnersOutlive cfg s₀ → ReleasedWhileOwned tr := by
    rintro houtlive τ hτ ⟨q, f⟩ hx e hencoded hdeleted
    obtain ⟨before, hinv⟩ := hat τ hτ
    obtain ⟨hq, hf, hthread⟩ := hinv.releasing (mem_destructorReleases hx)
    obtain ⟨he, hlt⟩ := (hthread e).mp hdeleted
    rw [hinv.heap] at hencoded
    exact Nat.lt_asymm hlt (houtlive q hq f hf e hencoded he)
  refine ⟨hsafe, fun hend => ⟨?_, hsafe⟩, ownersOutlive_iff⟩
  intro howned q hq f hf e hencoded he
  obtain ⟨τ, hτ, hx⟩ := (run_destroyInv hstart run hidle).ended hend hq hf
  obtain ⟨before, hinv⟩ := hat τ hτ
  obtain ⟨-, -, hthread⟩ := hinv.releasing (mem_destructorReleases hx)
  have hnot := howned τ hτ (q, f) hx e (by rw [hinv.heap]; exact hencoded)
  rw [hthread e] at hnot
  have hle : (MediaObject.queue q).stage ≤ (MediaObject.thread e).stage :=
    Nat.le_of_not_lt fun hlt => hnot ⟨he, hlt⟩
  refine Nat.lt_of_le_of_ne hle fun heq => ?_
  cases stage_injective heq

/-- Besides `main` and the prepare thread, only encoder threads at the head of their
loop take steps. -/
def AtLoopHead (τ : ShutdownTransition) : Bool :=
  match τ.action with
  | .pipeline (.encoder e _) => τ.src.pipeline.encoder e = .runLoop
  | .pipeline _ => false
  | _ => true

/-- An encoder thread at the head of its loop ends or turns to its queue. -/
theorem othersIdle_of_atLoopHead
    {τ : ShutdownTransition} (hvalid : τ.Valid (shutdownStep cfg lib))
    (h : AtLoopHead τ = true) : OthersIdle τ := by
  obtain ⟨s, a, es, s'⟩ := τ
  rintro a' rfl
  cases a' with
  | encoder e answer =>
      have hpc : s.pipeline.encoder e = .runLoop := of_decide_eq_true h
      simp only [Transition.Valid, shutdownStep, pipelineStep, encoderStep, hpc]
        at hvalid
      split at hvalid
      · split at hvalid
        · cases hvalid
        · rename_i r hr
          obtain ⟨rfl, -⟩ := Prod.mk.inj (Option.some.inj hvalid)
          split at hr
          · obtain rfl := Option.some.inj hr
            exact ⟨rfl, rfl⟩
          · split at hr <;> obtain rfl := Option.some.inj hr <;> exact ⟨rfl, rfl⟩
      · cases hvalid
  | _ =>
      cases h

end Destroy

/-- A camera without a microphone; the frame 0 is left in the queue. -/
def oneFrameLeft (q : QueueId) (frame : MediaFrame) : ShutdownState where
  pipeline :=
    { (pipelineStart.createFrame.setFrame 0 frame).setQueue q
        ((FiFo.init (queueCapacity q)).put 0).2 with
      stop := true
      mStatus := fun _ => .runing
      encoder := fun _ => .runLoop
      device := .exited }
  main := destroyMediaThread ⟨0, -1⟩
  prepare := .exited
  status := .streaming
  deleted := []

/-- `main` stops the encoder thread and goes through the two queues. -/
def destroyOneFrame : List ShutdownAction :=
  [.main, .pipeline (.encoder .mpThreadVE ⟨.kept, 0⟩)] ++ List.replicate 8 .main

/-- A frame of the device thread. -/
def rawLeft : MediaFrame :=
  mediaFrameSetRelease mediaFrameCreate .releasePkt 1

/-- A frame of the encoder thread. -/
def encodedLeft : MediaFrame :=
  encodedFrame .mpThreadVE 0 ⟨7, 100, 0, 0, 1⟩ mediaFrameCreate

/-- A raw frame is left in `pYUVQueue`, and no encoded frame. -/
theorem released_while_owned_iff_raw :
    ∃ tr s, Run (shutdownStep ⟨0, -1⟩ exactLibAv)
        (oneFrameLeft .pYUVQueue rawLeft) tr s ∧
      7 ≤ s.main.stage ∧
      tr.flatMap destructorReleases = [(.pYUVQueue, 0)] ∧
      ReleasedWhileOwned tr := by
  obtain ⟨tr, s, run, hend, hreleases, hloop⟩ :=
    Run.exists_of_exec (shutdownStep ⟨0, -1⟩ exactLibAv)
      (oneFrameLeft .pYUVQueue rawLeft) destroyOneFrame
      (fun r => 7 ≤ r.2.main.stage ∧
        r.1.flatMap destructorReleases = [(.pYUVQueue, 0)] ∧
        ∀ τ ∈ r.1, AtLoopHead τ = true)
      (by decide +kernel)
  have hidle : ∀ τ ∈ tr, OthersIdle τ :=
    fun τ hτ => othersIdle_of_atLoopHead (run.valid τ hτ) (hloop τ hτ)
  obtain ⟨hsafe, -, -⟩ := released_while_owned_iff ⟨rfl, rfl⟩ run hidle
  refine ⟨tr, s, run, hend, hreleases, hsafe ?_⟩
  intro q _ f hf e hencoded
  have hcontents : ∀ q, (((oneFrameLeft .pYUVQueue rawLeft).pipeline.queue
      q).contents = if q = .pYUVQueue then [0] else []) := by
    decide +kernel
  rw [hcontents q] at hf
  split at hf
  · obtain rfl := List.mem_singleton.mp hf
    exact absurd hencoded.1 (by decide)
  · cases hf

/-- An encoded frame is left in `pVEQueue`: it is released after its thread object
is deleted. -/
theorem released_while_owned_fails_encoded :
    ∃ tr s, Run (shutdownStep ⟨0, -1⟩ exactLibAv)
        (oneFrameLeft .pVEQueue encodedLeft) tr s ∧
      EntersDestroy ⟨0, -1⟩ (oneFrameLeft .pVEQueue encodedLeft) ∧
      (∀ τ ∈ tr, OthersIdle τ) ∧
      ¬ ReleasedWhileOwned tr := by
  obtain ⟨tr, s, run, hloop, τ, hτ, x, hx, hencoded, hdeleted⟩ :=
    Run.exists_of_exec (shutdownStep ⟨0, -1⟩ exactLibAv)
      (oneFrameLeft .pVEQueue encodedLeft) destroyOneFrame
      (fun r => (∀ τ ∈ r.1, AtLoopHead τ = true) ∧
        ∃ τ ∈ r.1, ∃ x ∈ destructorReleases τ,
          (τ.src.pipeline.heap x.2).EncodedBy .mpThreadVE ∧
          .thread .mpThreadVE ∈ τ.src.deleted)
      (by decide +kernel)
  refine ⟨tr, s, run, ⟨rfl, rfl⟩, ?_, fun howned => ?_⟩
  · exact fun τ hτ => othersIdle_of_atLoopHead (run.valid τ hτ) (hloop τ hτ)
  · exact howned τ hτ x hx .mpThreadVE hencoded hdeleted

end KoalaStreamer
