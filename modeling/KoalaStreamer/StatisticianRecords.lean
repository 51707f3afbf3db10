import KoalaStreamer.StreamStatistician
import Mathlib.Algebra.BigOperators.Group.List.Basic

/-!
# streamStatistician.c: the records by their index

The operations on a stream work on the record at its index and leave the others
alone; an index without a record is ignored.

Main results:
* `streamers_onFrameBegin`, `streamers_onFrameEnd`: the records after an operation;
* `registerStreams_fresh`: what registration leaves behind.
-/

namespace KoalaStreamer

section Modify

universe u

variable {α : Type u}

theorem modify_of_none
    {l : List α} {i : ℕ} (h : l[i]? = none) (f : α → α) : l.modify i f = l := by
  rw [List.modify_eq_set_getElem?, h]
  rfl

theorem modify_of_some
    {l : List α} {i : ℕ} {r : α} (h : l[i]? = some r) (f : α → α) :
    l.modify i f = l.set i (f r) := by
  rw [List.modify_eq_set_getElem?, h]
  rfl

/-- The sum over a list in which one element has changed. -/
theorem sum_map_modify
    {l : List α} {i : ℕ} {r : α} (h : l[i]? = some r) (f : α → α) (g : α → ℕ) :
    ((l.modify i f).map g).sum + g r = (l.map g).sum + g (f r) := by
  induction l generalizing i with
  | nil =>
      simp at h
  | cons x l ih =>
      cases i with
      | zero =>
          obtain rfl : x = r := by simpa using h
          simp only [List.modify_zero_cons, List.map_cons, List.sum_cons]
          omega
      | succ i =>
          have hrest := ih (by simpa using h)
          simp only [List.modify_succ_cons, List.map_cons, List.sum_cons]
          omega

theorem getLast?_modify
    (l : List α) (i : ℕ) (f : α → α) :
    (l.modify i f).getLast? =
      if i + 1 = l.length then l.getLast?.map f else l.getLast? := by
  rw [List.getLast?_eq_getElem?, List.getLast?_eq_getElem?, List.length_modify,
    List.getElem?_modify]
  cases l with
  | nil =>
      simp
  | cons x l =>
      simp only [List.length_cons, Nat.add_sub_cancel, Nat.add_right_cancel_iff]
      by_cases hi : i = l.length
      · simp [hi]
      · simp [hi]

end Modify

section Records

variable {p : StreamerStatistician}

/-- There are at most as many records as the array has room for. -/
def StreamerStatistician.WellFormed (p : StreamerStatistician) : Prop :=
  p.streamers.length ≤ maxStreames

/-- Register the streams one after the other. -/
def registerStreams (types : List KoalaStreamType) : StreamerStatistician :=
  types.foldl (fun pHandle type => (addStream pHandle type).2)
    streamerStatisticianCreate

/-- The wait that `onFrameEnd` records, in milliseconds. -/
def recordedWait (frameStartTime timeNow : Int) : ℕ :=
  if (timeNow - frameStartTime).tdiv 1000 ≥ 10 then
    ((timeNow - frameStartTime).tdiv 1000).toNat
  else 0

/-- The records after a registration. -/
theorem streamers_addStream
    (p : StreamerStatistician) (type : KoalaStreamType) :
    (addStream p type).2.streamers =
      if p.streamers.length ≥ maxStreames then p.streamers
      else p.streamers ++
        [{ total := .zero, statistics := .zero, frameStartTime := 0, type := type }] := by
  simp only [addStream]
  split <;> rfl

theorem wellFormed_addStream
    (h : p.WellFormed) (type : KoalaStreamType) :
    (addStream p type).2.WellFormed := by
  simp only [addStream]
  split
  · exact h
  · rename_i hroom
    simp only [StreamerStatistician.WellFormed, List.length_append,
      List.length_singleton]
    omega

theorem getElem?_none_of_wellFormed
    (h : p.WellFormed) {i : ℕ} (hi : maxStreames ≤ i) : p.streamers[i]? = none :=
  List.getElem?_eq_none (h.trans hi)

theorem streamers_onFrameBegin
    (h : p.WellFormed) (i : ℕ) (clock : BeginClock) :
    (onFrameBegin p i clock).streamers =
      p.streamers.modify i fun r => r.frameBegin clock := by
  simp only [onFrameBegin, StreamerStatistician.streamerAt, Int.toNat_natCast]
  by_cases hi : maxStreames ≤ i
  · rw [if_pos (by exact_mod_cast hi),
      modify_of_none (getElem?_none_of_wellFormed h hi)]
  · rw [if_neg (by exact_mod_cast hi), if_neg (by omega)]
    cases hr : p.streamers[i]? with
    | none =>
        exact (modify_of_none hr _).symm
    | some r =>
        rw [modify_of_some hr]
        simp [StreamerStatistician.setStreamer]

theorem streamers_onFrameEnd
    (h : p.WellFormed) (i : ℕ) (frame : MediaFrame) (timeNow : Int) :
    (onFrameEnd p i (some frame) timeNow).streamers =
      p.streamers.modify i fun r => r.frameEnd frame timeNow := by
  simp only [onFrameEnd, StreamerStatistician.streamerAt, Int.toNat_natCast]
  by_cases hi : maxStreames ≤ i
  · rw [if_pos (by exact_mod_cast hi),
      modify_of_none (getElem?_none_of_wellFormed h hi)]
  · rw [if_neg (by exact_mod_cast hi), if_neg (by omega)]
    cases hr : p.streamers[i]? with
    | none =>
        exact (modify_of_none hr _).symm
    | some r =>
        rw [modify_of_some hr]
        simp [StreamerStatistician.setStreamer]

theorem wellFormed_of_length
    {q : StreamerStatistician} (h : p.WellFormed)
    (hlength : q.streamers.length = p.streamers.length) : q.WellFormed := by
  rw [StreamerStatistician.WellFormed, hlength]
  exact h

theorem length_onFrameBegin
    (h : p.WellFormed) (i : ℕ) (clock : BeginClock) :
    (onFrameBegin p i clock).streamers.length = p.streamers.length := by
  rw [streamers_onFrameBegin h, List.length_modify]

theorem length_onFrameEnd
    (h : p.WellFormed) (i : ℕ) (frame : Option MediaFrame) (timeNow : Int) :
    (onFrameEnd p i frame timeNow).streamers.length = p.streamers.length := by
  cases frame with
  | none =>
      rfl
  | some frame =>
      rw [streamers_onFrameEnd h, List.length_modify]

theorem length_reset
    (p : StreamerStatistician) (now : ℕ → Int) :
    (resetStatistician p now).streamers.length = p.streamers.length :=
  List.length_mapIdx

/-- After the registration no stream has a record of anything. -/
theorem registerStreams_fresh
    (types : List KoalaStreamType) :
    (registerStreams types).WellFormed ∧
    ∀ r ∈ (registerStreams types).streamers, r.statistics = .zero := by
  have hall : ∀ p : StreamerStatistician,
      p.WellFormed ∧ (∀ r ∈ p.streamers, r.statistics = .zero) →
      (types.foldl (fun pHandle type => (addStream pHandle type).2) p).WellFormed ∧
      ∀ r ∈ (types.foldl (fun pHandle type => (addStream pHandle type).2)
        p).streamers, r.statistics = .zero := by
    induction types with
    | nil =>
        exact fun p hp => hp
    | cons type types ih =>
        rintro p ⟨hwell, hzero⟩
        refine ih _ ⟨wellFormed_addStream hwell type, ?_⟩
        simp only [addStream]
        split
        · exact hzero
        · intro r hr
          rcases List.mem_append.mp hr with hr | hr
          · exact hzero r hr
          · rw [List.mem_singleton.mp hr]
  exact hall streamerStatisticianCreate ⟨Nat.zero_le _, by simp [streamerStatisticianCreate]⟩

end Records

end KoalaStreamer
