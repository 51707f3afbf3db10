import KoalaStreamer.FFEncoderThread
import KoalaStreamer.Library.TokenAccounting

/-!
# MacRTMPStreamer.cpp: who owns an encoder's packet

`encoderVideo` and `encoderAudio` allocate a packet for the encoder.  When the
encoder has given something out, the packet belongs to the frame that is handed
out, and `release_pkt_buffer` frees it; when it has not, nobody keeps the packet.

Main results:
* `dealStep_balanced`: a step moves packets, allocates one or loses one;
* `encoder_packets_owned_iff`: in a run every packet has one owner or is freed
  once, if and only if every encode call has given out a packet.
-/

namespace KoalaStreamer

open EventMachine TokenAccounting

/-- Where a packet of the encoder can be. -/
inductive PacketPlace
  /-- The `release_arg` of a frame that was handed out and not yet released. -/
  | attached
  | freed
deriving DecidableEq

instance : Fintype PacketPlace where
  elems := {.attached, .freed}
  complete := by
    intro p
    cases p <;> simp

section Packets

variable {β : Type}

/-- Which packets a place holds. -/
def DealState.packets (s : DealState β) : PacketPlace → List PktId
  | .attached => s.returned.map (·.releaseArg)
  | .freed => s.freedPkts

/-- The encode call of the step, if it makes one, gives out a packet. -/
def GivesPacket (τ : DealTransition β) : Prop :=
  match τ.action with
  | .deal _ pkt answer => τ.src.thread.Encodes pkt → answer.got = true
  | .release _ => True

/-- The packets that a step loses. -/
def lostPackets (s : DealState β) : DealAction β → List PktId
  | .deal _ pkt answer =>
      if s.thread.Encodes pkt ∧ answer.got = false then [s.nextPkt] else []
  | .release _ => []

theorem lostPackets_eq_nil_iff
    (τ : DealTransition β) :
    lostPackets τ.src τ.action = [] ↔ GivesPacket τ := by
  obtain ⟨s, a, es, s'⟩ := τ
  cases a with
  | deal pFrame pkt answer =>
      simp [lostPackets, GivesPacket]
  | release pFrame =>
      simp [lostPackets, GivesPacket]

/-- Every frame that was handed out goes back through `release_pkt_buffer`. -/
def ReturnedEncoded (s : DealState β) : Prop :=
  ∀ f ∈ s.returned, f.release = .releasePktBuffer

theorem held_packets
    (s : DealState β) (a : PktId) :
    held s.packets a =
      (s.returned.map (·.releaseArg)).count a + s.freedPkts.count a := by
  have huniv : (Finset.univ : Finset PacketPlace) = {.attached, .freed} := by
    decide
  rw [held, huniv, Finset.sum_pair (by decide)]
  rfl

theorem handOut_eq_some
    {id : EncoderId} {pkt : PktId} {answer : EncodeAnswer} {f : MediaFrame}
    (h : handOut id pkt answer = some f) :
    f.release = .releasePktBuffer ∧ f.releaseArg = pkt := by
  simp only [handOut] at h
  split at h
  · cases h
    exact ⟨rfl, rfl⟩
  · cases h

/-- The packet of the frame that is handed out, and the packet that is lost. -/
theorem handOut_accounts
    (id : EncoderId) (pkt : PktId) (answer : EncodeAnswer) :
    (handOut id pkt answer).toList.map (·.releaseArg) ++
      (if answer.got = false then [pkt] else []) = [pkt] := by
  cases hgot : answer.got with
  | true =>
      simp [handOut, hgot, encodedFrame, mediaFrameSetRelease]
  | false =>
      simp [handOut, hgot]

variable {bytesPerSample : Int → Int} {s s' : DealState β} {a : DealAction β}
  {es : List (DealEvent β)}

theorem dealStep_returnedEncoded
    (h : ReturnedEncoded s)
    (hstep : dealStep bytesPerSample s a = some (s', es)) :
    ReturnedEncoded s' := by
  cases a with
  | deal pFrame pkt answer =>
      obtain ⟨rfl, -⟩ := Prod.mk.inj (Option.some.inj hstep)
      intro f hf
      rcases List.mem_append.mp hf with hf | hf
      · exact h f hf
      · rw [(deal_ret _ _ _ _ _ _).1] at hf
        split at hf
        · exact (handOut_eq_some (Option.mem_toList.mp hf)).1
        · cases hf
  | release pFrame =>
      simp only [dealStep] at hstep
      split at hstep
      · obtain ⟨rfl, -⟩ := Prod.mk.inj (Option.some.inj hstep)
        exact fun f hf => h f (List.mem_of_mem_erase hf)
      · cases hstep

/-- A step allocates a packet or moves one, up to the packet it loses. -/
theorem dealStep_balanced
    (h : ReturnedEncoded s)
    (hstep : dealStep bytesPerSample s a = some (s', es)) :
    Balanced s.packets s.nextPkt s'.packets s'.nextPkt (lostPackets s a) := by
  cases a with
  | deal pFrame pkt answer =>
      obtain ⟨rfl, -⟩ := Prod.mk.inj (Option.some.inj hstep)
      obtain ⟨hret, hnext⟩ :=
        deal_ret bytesPerSample s.thread s.nextPkt pFrame pkt answer
      rw [hret, hnext]
      by_cases hencodes : s.thread.Encodes pkt
      · rw [if_pos hencodes, if_pos hencodes]
        refine ⟨Nat.le_succ _, fun p => ?_⟩
        have haccount := congrArg (List.count p)
          (handOut_accounts s.thread.id s.nextPkt answer)
        rw [List.count_append] at haccount
        simp only [held_packets, lostPackets, hencodes, true_and, List.map_append,
          List.count_append, issued_succ]
        omega
      · rw [if_neg hencodes, if_neg hencodes]
        refine ⟨Nat.le_refl _, fun p => ?_⟩
        simp [held_packets, lostPackets, hencodes]
  | release pFrame =>
      simp only [dealStep] at hstep
      split at hstep
      · rename_i hmem
        obtain ⟨rfl, -⟩ := Prod.mk.inj (Option.some.inj hstep)
        refine ⟨Nat.le_refl _, fun p => ?_⟩
        have hperm := ((List.perm_cons_erase hmem).map (·.releaseArg)).count_eq p
        rw [List.map_cons, List.count_cons] at hperm
        simp only [held_packets, lostPackets, releasedPackets, h pFrame hmem,
          List.singleton_append, List.count_cons, List.count_nil, issued_self]
        omega
      · cases hstep

/-- Before the first call there are no packets. -/
theorem dealState_exactlyOnce
    (t : FFEncoderThread β) :
    ExactlyOnce (DealState.init t).packets (DealState.init t).nextPkt := by
  refine exactlyOnce_empty ?_
  intro p
  cases p <;> rfl

theorem run_returnedEncoded
    {t : FFEncoderThread β} {tr : List (DealTransition β)}
    (run : Run (dealStep bytesPerSample) (DealState.init t) tr s) :
    ReturnedEncoded s :=
  Run.invariant (fun _ s => ReturnedEncoded s)
    (fun _ hf => absurd hf List.not_mem_nil)
    (fun _ _ _ _ _ h hstep => dealStep_returnedEncoded h hstep) run

/--
In every run of an encoder thread: after every call and every release, each packet
allocated so far is attached to exactly one frame that was handed out, or was
freed exactly once, if and only if every encode call of the run has given out a
packet.
-/
theorem encoder_packets_owned_iff
    {t : FFEncoderThread β} {tr : List (DealTransition β)}
    (run : Run (dealStep bytesPerSample) (DealState.init t) tr s) :
    (∀ τ ∈ tr, ExactlyOnce τ.dst.packets τ.dst.nextPkt) ↔
      ∀ τ ∈ tr, GivesPacket τ := by
  rw [exactlyOnce_iff DealState.packets DealState.nextPkt lostPackets
    run_returnedEncoded (dealState_exactlyOnce t) dealStep_balanced run]
  simp only [lostPackets_eq_nil_iff]

end Packets

/-- A video encoder. -/
def videoThread : FFEncoderThread ℕ where
  id := .mpThreadVE
  type := .video
  mCodecCtx := ⟨720, 1280, 23, -1, 0, 0, 0⟩
  mPCMBuffer := []
  mPcmSize := 0

/-- The encoder gives out a key frame, or nothing. -/
def encoderAnswers (got : Bool) : EncodeAnswer where
  ret := 0
  got := got
  out := ⟨7, 100, 0, 0, 1⟩
  frame := mediaFrameCreate

/-- The frame that is handed out for the first packet. -/
def firstEncodedFrame : MediaFrame :=
  encodedFrame .mpThreadVE 0 (encoderAnswers true).out mediaFrameCreate

/-- A picture is encoded, and the frame is released. -/
theorem encoder_packets_owned_iff_released :
    ∃ tr s, Run (dealStep fun _ => 2) (DealState.init videoThread) tr s ∧
      s.nextPkt = 1 ∧ s.freedPkts = [0] ∧
      ∀ τ ∈ tr, ExactlyOnce τ.dst.packets τ.dst.nextPkt := by
  obtain ⟨tr, s, run, hnext, hfreed, hgot⟩ :=
    Run.exists_of_exec (dealStep fun _ => 2) (DealState.init videoThread)
      [.deal newRawFrame ⟨[], 0⟩ (encoderAnswers true), .release firstEncodedFrame]
      (fun r => r.2.nextPkt = 1 ∧ r.2.freedPkts = [0] ∧
        ∀ τ ∈ r.1, lostPackets τ.src τ.action = [])
      (by decide +kernel)
  refine ⟨tr, s, run, hnext, hfreed, (encoder_packets_owned_iff run).mpr ?_⟩
  exact fun τ hτ => (lostPackets_eq_nil_iff τ).mp (hgot τ hτ)

/-- The encoder keeps the first picture back: its packet has no owner. -/
theorem encoder_packets_owned_fails_delay :
    ∃ tr s, Run (dealStep fun _ => 2) (DealState.init videoThread) tr s ∧
      s.nextPkt = 1 ∧
      ¬ ∀ τ ∈ tr, ExactlyOnce τ.dst.packets τ.dst.nextPkt := by
  obtain ⟨tr, s, run, hnext, τ, hτ, hissued, hheld⟩ :=
    Run.exists_of_exec (dealStep fun _ => 2) (DealState.init videoThread)
      [.deal newRawFrame ⟨[], 0⟩ (encoderAnswers false)]
      (fun r => r.2.nextPkt = 1 ∧
        ∃ τ ∈ r.1, 0 < τ.dst.nextPkt ∧ ∀ p, 0 ∉ τ.dst.packets p)
      (by decide +kernel)
  refine ⟨tr, s, run, hnext, fun hall => ?_⟩
  obtain ⟨p, hp⟩ :=
    (hall τ hτ).atMostOnce.exactlyOnce_iff.mp (hall τ hτ) 0 hissued
  exact hheld p hp

end KoalaStreamer
