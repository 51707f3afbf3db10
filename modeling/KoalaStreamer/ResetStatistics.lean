import KoalaStreamer.StatisticianRecords
import Mathlib.Data.List.Induction

/-!
# streamStatistician.c: resets and the totals

The total of a stream and its current period together count every call of
`onFrameEnd` for the stream since it was registered.  The wait of a call begins
with the last `onFrameBegin` of the stream, also when a reset lies in between.

Main results:
* `counters_performAll`: the counters of all streams after any operations;
* `resets_lose_nothing`: they do not depend on the resets, and an operation on
  one stream leaves the others alone.
-/

namespace KoalaStreamer

/-! ## The operations -/

/-- A call of one of the functions of the statistician. -/
inductive StatisticianOp
  | addStream (type : KoalaStreamType)
  | onFrameBegin (index : ℕ) (clock : BeginClock)
  | onFrameEnd (index : ℕ) (frame : Option MediaFrame) (timeNow : Int)
  | reset (now : ℕ → Int)

def perform (p : StreamerStatistician) : StatisticianOp → StreamerStatistician
  | .addStream type => (addStream p type).2
  | .onFrameBegin index clock => onFrameBegin p index clock
  | .onFrameEnd index frame timeNow => onFrameEnd p index frame timeNow
  | .reset now => resetStatistician p now

def performAll (p : StreamerStatistician) (ops : List StatisticianOp) :
    StreamerStatistician :=
  ops.foldl perform p

namespace StatisticianOp

def isAddStream : StatisticianOp → Bool
  | .addStream _ => true
  | _ => false

def isReset : StatisticianOp → Bool
  | .reset _ => true
  | _ => false

/-- The stream that an operation is on, when `n` streams are registered. -/
def stream (n : ℕ) : StatisticianOp → Option ℕ
  | .addStream _ => some n
  | .onFrameBegin index _ => some index
  | .onFrameEnd index _ _ => some index
  | .reset _ => none

end StatisticianOp

/-! ## What the counters are to say -/

/-- A call of `onFrameEnd`, and when its frame was begun. -/
structure EndCall where
  frame : MediaFrame
  begun : Int
  timeNow : Int

/-- The counters of a stream. -/
@[ext] structure Counters where
  frames : BitVec 64
  size : BitVec 64
  waitTimes : BitVec 64
  waitMs : BitVec 64
deriving DecidableEq, Repr

/-- What some calls amount to, modulo 2 ^ 64. -/
def Counters.ofCalls (calls : List EndCall) : Counters where
  frames := BitVec.ofNat 64 calls.length
  size := BitVec.ofInt 64 (calls.map (·.frame.size)).sum
  waitTimes := BitVec.ofNat 64
    (calls.countP fun call => 0 < recordedWait call.begun call.timeNow)
  waitMs := BitVec.ofNat 64
    (calls.map fun call => recordedWait call.begun call.timeNow).sum

/-- Total and current period together. -/
def StreamStatistics.counters (r : StreamStatistics) : Counters where
  frames := r.total.frames + r.statistics.frames
  size := r.total.size + r.statistics.size
  waitTimes := r.total.waitTimes + r.statistics.waitTimes
  waitMs := r.total.waitMs + r.statistics.waitMs

/-- The operations after the one that registers stream number `i`. -/
def sinceRegistered : ℕ → List StatisticianOp → List StatisticianOp
  | _, [] => []
  | 0, .addStream _ :: ops => ops
  | i + 1, .addStream _ :: ops => sinceRegistered i ops
  | i, _ :: ops => sinceRegistered i ops

/-- The calls of `onFrameEnd` for a stream; `begun` is when its last frame was
begun before them. -/
def endCalls (i : ℕ) : Int → List StatisticianOp → List EndCall
  | _, [] => []
  | begun, .onFrameBegin index clock :: ops =>
      endCalls i (if index = i then clock.frame else begun) ops
  | begun, .onFrameEnd index (some frame) timeNow :: ops =>
      if index = i then ⟨frame, begun, timeNow⟩ :: endCalls i begun ops
      else endCalls i begun ops
  | begun, _ :: ops => endCalls i begun ops

theorem isAddStream_iff
    {op : StatisticianOp} : op.isAddStream = true ↔ ∃ type, op = .addStream type := by
  cases op <;> simp [StatisticianOp.isAddStream]

theorem sinceRegistered_of_not_add
    {op : StatisticianOp} (h : ¬ op.isAddStream = true)
    (i : ℕ) (ops : List StatisticianOp) :
    sinceRegistered i (op :: ops) = sinceRegistered i ops := by
  cases op <;> first | exact absurd rfl h | rfl

/-- How many streams the operations register. -/
def registeredStreams (ops : List StatisticianOp) : ℕ :=
  min (ops.countP (·.isAddStream)) maxStreames

section Counters

variable {p : StreamerStatistician} {r : StreamStatistics} {i : ℕ}

/-- One call more. -/
def Counters.add (c : Counters) (call : EndCall) : Counters where
  frames := c.frames + 1
  size := c.size + BitVec.ofInt 64 call.frame.size
  waitTimes := c.waitTimes + if 0 < recordedWait call.begun call.timeNow then 1 else 0
  waitMs := c.waitMs + BitVec.ofNat 64 (recordedWait call.begun call.timeNow)

theorem Counters.ofCalls_snoc
    (calls : List EndCall) (call : EndCall) :
    Counters.ofCalls (calls ++ [call]) = (Counters.ofCalls calls).add call := by
  simp only [Counters.ofCalls, Counters.add, List.length_append, List.length_singleton,
    List.map_append, List.map_singleton, List.sum_append, List.sum_singleton,
    List.countP_append, List.countP_singleton, BitVec.ofNat_add, BitVec.ofInt_add]
  split <;> simp_all

/-- Counting the calls one by one. -/
theorem Counters.foldl_add
    (calls : List EndCall) :
    calls.foldl Counters.add (.ofCalls []) = .ofCalls calls := by
  induction calls using List.reverseRecOn with
  | nil =>
      rfl
  | append_singleton calls call ih =>
      rw [List.foldl_append, ih, Counters.ofCalls_snoc]
      rfl

@[simp] theorem counters_frameBegin
    (r : StreamStatistics) (clock : BeginClock) :
    (r.frameBegin clock).counters = r.counters := by
  rfl

@[simp] theorem counters_reset
    (r : StreamStatistics) (now : Int) :
    (r.reset now).counters = r.counters := by
  simp [StreamStatistics.counters, StreamStatistics.reset, StatisticsData.zero]

theorem counters_frameEnd
    (r : StreamStatistics) (frame : MediaFrame) (timeNow : Int) :
    (r.frameEnd frame timeNow).counters =
      r.counters.add ⟨frame, r.frameStartTime, timeNow⟩ := by
  simp only [StreamStatistics.counters, StreamStatistics.frameEnd, Counters.add,
    recordedWait]
  by_cases hlong : (timeNow - r.frameStartTime).tdiv 1000 ≥ 10
  · have hpos : 0 < ((timeNow - r.frameStartTime).tdiv 1000).toNat := by omega
    have hwait : BitVec.ofInt 64 ((timeNow - r.frameStartTime).tdiv 1000) =
        BitVec.ofNat 64 ((timeNow - r.frameStartTime).tdiv 1000).toNat := by
      rw [← BitVec.ofInt_natCast, Int.toNat_of_nonneg (by omega)]
    simp only [if_pos hlong, if_pos hpos, hwait, BitVec.add_assoc]
  · simp [if_neg hlong, BitVec.add_assoc]

end Counters

/-! ## One operation -/

section Step

variable {p : StreamerStatistician} {r : StreamStatistics} {i j : ℕ}

theorem wellFormed_perform
    (h : p.WellFormed) (op : StatisticianOp) : (perform p op).WellFormed := by
  cases op with
  | addStream type =>
      exact wellFormed_addStream h type
  | onFrameBegin index clock =>
      exact wellFormed_of_length h (length_onFrameBegin h index clock)
  | onFrameEnd index frame timeNow =>
      exact wellFormed_of_length h (length_onFrameEnd h index frame timeNow)
  | reset now =>
      exact wellFormed_of_length h (length_reset p now)

theorem length_perform
    (h : p.WellFormed) (op : StatisticianOp) :
    (perform p op).streamers.length =
      min (p.streamers.length + if op.isAddStream then 1 else 0) maxStreames := by
  have hle : p.streamers.length ≤ maxStreames := h
  cases op with
  | addStream type =>
      simp only [perform, streamers_addStream, StatisticianOp.isAddStream, if_true]
      split
      · omega
      · simp only [List.length_append, List.length_singleton]
        omega
  | onFrameBegin index clock =>
      simp only [perform, length_onFrameBegin h, StatisticianOp.isAddStream]
      exact (min_eq_left hle).symm
  | onFrameEnd index frame timeNow =>
      simp only [perform, length_onFrameEnd h, StatisticianOp.isAddStream]
      exact (min_eq_left hle).symm
  | reset now =>
      simp only [perform, length_reset, StatisticianOp.isAddStream]
      exact (min_eq_left hle).symm

/-- An operation on another stream leaves a record alone. -/
theorem perform_of_ne
    (h : p.WellFormed) {op : StatisticianOp}
    (hop : op.stream p.streamers.length = some j) (hne : j ≠ i) :
    (perform p op).streamers[i]? = p.streamers[i]? := by
  cases op with
  | addStream type =>
      obtain rfl : p.streamers.length = j := Option.some.inj hop
      simp only [perform, streamers_addStream]
      split
      · rfl
      · rw [List.getElem?_append]
        split
        · rfl
        · rw [List.getElem?_singleton, if_neg (by omega)]
          exact (List.getElem?_eq_none (by omega)).symm
  | onFrameBegin index clock =>
      obtain rfl : index = j := Option.some.inj hop
      simp only [perform, streamers_onFrameBegin h]
      exact List.getElem?_modify_ne _ _ hne
  | onFrameEnd index frame timeNow =>
      obtain rfl : index = j := Option.some.inj hop
      cases frame with
      | none =>
          rfl
      | some frame =>
          simp only [perform, streamers_onFrameEnd h]
          exact List.getElem?_modify_ne _ _ hne
  | reset now =>
      cases hop

/-- An operation counts the call of `onFrameEnd` that it is, if it is one, and keeps
when the last frame was begun. -/
theorem perform_record
    (h : p.WellFormed) (hr : p.streamers[i]? = some r) (op : StatisticianOp) :
    ∃ r', (perform p op).streamers[i]? = some r' ∧
      ∀ ops, (endCalls i r'.frameStartTime ops).foldl Counters.add r'.counters =
        (endCalls i r.frameStartTime (op :: ops)).foldl Counters.add r.counters := by
  obtain ⟨hlt, _⟩ := List.getElem?_eq_some_iff.mp hr
  cases op with
  | addStream type =>
      have hsame : (perform p (.addStream type)).streamers[i]? = p.streamers[i]? :=
        perform_of_ne h rfl hlt.ne'
      exact ⟨r, hsame.trans hr, fun _ => rfl⟩
  | onFrameBegin index clock =>
      by_cases hi : index = i
      · subst hi
        refine ⟨r.frameBegin clock, ?_, fun ops => ?_⟩
        · simp only [perform, streamers_onFrameBegin h]
          rw [List.getElem?_modify_eq, hr]
          rfl
        · simp only [endCalls, if_true, counters_frameBegin]
          rfl
      · have hsame : (perform p (.onFrameBegin index clock)).streamers[i]? =
            p.streamers[i]? := perform_of_ne h rfl hi
        refine ⟨r, hsame.trans hr, fun ops => ?_⟩
        simp only [endCalls, if_neg hi]
  | onFrameEnd index frame timeNow =>
      cases frame with
      | none =>
          exact ⟨r, hr, fun _ => rfl⟩
      | some frame =>
          by_cases hi : index = i
          · subst hi
            refine ⟨r.frameEnd frame timeNow, ?_, fun ops => ?_⟩
            · simp only [perform, streamers_onFrameEnd h]
              rw [List.getElem?_modify_eq, hr]
              rfl
            · simp only [endCalls, if_true, counters_frameEnd, List.foldl_cons]
              rfl
          · have hsame : (perform p (.onFrameEnd index (some frame) timeNow)).streamers[i]? =
                p.streamers[i]? := perform_of_ne h rfl hi
            refine ⟨r, hsame.trans hr, fun ops => ?_⟩
            simp only [endCalls, if_neg hi]
  | reset now =>
      refine ⟨r.reset (now i), ?_, fun ops => ?_⟩
      · simp only [perform, resetStatistician]
        rw [List.getElem?_mapIdx, hr]
        rfl
      · simp only [counters_reset]
        rfl

end Step

/-! ## Any number of operations -/

section Runs

variable {p : StreamerStatistician} {r : StreamStatistics} {i j : ℕ}

theorem performAll_wellFormed
    (h : p.WellFormed) (ops : List StatisticianOp) : (performAll p ops).WellFormed := by
  induction ops generalizing p with
  | nil =>
      exact h
  | cons op ops ih =>
      exact ih (wellFormed_perform h op)

theorem length_performAll
    (h : p.WellFormed) (ops : List StatisticianOp) :
    (performAll p ops).streamers.length =
      min (p.streamers.length + ops.countP (·.isAddStream)) maxStreames := by
  induction ops generalizing p with
  | nil =>
      exact (min_eq_left h).symm
  | cons op ops ih =>
      have hrest := ih (wellFormed_perform h op)
      rw [length_perform h op] at hrest
      rw [List.countP_cons]
      exact hrest.trans (by omega)

/-- The counters of a registered stream. -/
theorem counters_of_registered
    (h : p.WellFormed) (hr : p.streamers[i]? = some r) (ops : List StatisticianOp) :
    (performAll p ops).streamers[i]?.map (·.counters) =
      some ((endCalls i r.frameStartTime ops).foldl Counters.add r.counters) := by
  induction ops generalizing p r with
  | nil =>
      simp [performAll, hr, endCalls]
  | cons op ops ih =>
      obtain ⟨r', hr', hcounts⟩ := perform_record h hr op
      rw [← hcounts ops]
      exact ih (wellFormed_perform h op) hr'

/-- The counters of a stream that the operations register. -/
theorem counters_of_registering
    (h : p.WellFormed) (hi : p.streamers.length ≤ i) (ops : List StatisticianOp)
    (hlt : i < (performAll p ops).streamers.length) :
    (performAll p ops).streamers[i]?.map (·.counters) =
      some (.ofCalls
        (endCalls i 0 (sinceRegistered (i - p.streamers.length) ops))) := by
  induction ops generalizing p with
  | nil =>
      exact absurd hi (Nat.not_le.mpr hlt)
  | cons op ops ih =>
      have hwell := wellFormed_perform h op
      have hlength := length_perform h op
      have hroom : i < maxStreames := hlt.trans_le (performAll_wellFormed h (op :: ops))
      by_cases hadd : op.isAddStream = true
      · obtain ⟨type, rfl⟩ := isAddStream_iff.mp hadd
        rw [hadd, if_pos rfl, min_eq_left (by omega)] at hlength
        by_cases hnew : p.streamers.length = i
        · have hr : (perform p (.addStream type)).streamers[i]? =
              some { total := .zero, statistics := .zero, frameStartTime := 0,
                     type := type } := by
            simp only [perform, streamers_addStream]
            rw [if_neg (by omega), ← hnew, List.getElem?_concat_length]
          have hcounts := counters_of_registered hwell hr ops
          rw [← hnew, Nat.sub_self, sinceRegistered, hnew, ← Counters.foldl_add]
          exact hcounts
        · have hnext : i - p.streamers.length =
              i - (perform p (.addStream type)).streamers.length + 1 := by
            omega
          rw [hnext, sinceRegistered]
          exact ih hwell (by omega) hlt
      · have hsame : sinceRegistered (i - p.streamers.length) (op :: ops) =
            sinceRegistered (i - p.streamers.length) ops :=
          sinceRegistered_of_not_add hadd _ ops
        rw [if_neg hadd, Nat.add_zero, min_eq_left (h : _ ≤ _)] at hlength
        rw [hsame, ← hlength]
        exact ih hwell (by omega) hlt

/-- The counters of all streams after any operations. -/
theorem counters_performAll
    (ops : List StatisticianOp) :
    (performAll streamerStatisticianCreate ops).streamers.map (·.counters) =
      (List.range (registeredStreams ops)).map fun i =>
        .ofCalls (endCalls i 0 (sinceRegistered i ops)) := by
  have hwell : streamerStatisticianCreate.WellFormed := Nat.zero_le _
  have hlength := length_performAll hwell ops
  have hcount : (performAll streamerStatisticianCreate ops).streamers.length =
      registeredStreams ops := by
    rw [hlength]
    simp [streamerStatisticianCreate, registeredStreams]
  refine List.ext_getElem? fun i => ?_
  rw [List.getElem?_map, List.getElem?_map]
  by_cases hi : i < registeredStreams ops
  · rw [List.getElem?_range hi]
    exact counters_of_registering hwell (Nat.zero_le i) ops (hcount ▸ hi)
  · rw [List.getElem?_eq_none (by omega), List.getElem?_eq_none (by simpa using hi)]
    rfl

/-! ### Without the resets -/

/-- The operations that are no resets. -/
def withoutResets (ops : List StatisticianOp) : List StatisticianOp :=
  ops.filter fun op => !op.isReset

theorem withoutResets_cons
    (op : StatisticianOp) (ops : List StatisticianOp) :
    withoutResets (op :: ops) =
      if op.isReset then withoutResets ops else op :: withoutResets ops := by
  cases op <;> rfl

theorem endCalls_withoutResets
    (i : ℕ) (begun : Int) (ops : List StatisticianOp) :
    endCalls i begun (withoutResets ops) = endCalls i begun ops := by
  induction ops generalizing begun with
  | nil =>
      rfl
  | cons op ops ih =>
      cases op with
      | addStream type =>
          exact ih begun
      | onFrameBegin index clock =>
          exact ih _
      | onFrameEnd index frame timeNow =>
          cases frame with
          | none =>
              exact ih begun
          | some frame =>
              simp only [withoutResets_cons, StatisticianOp.isReset, Bool.false_eq_true,
                if_false, endCalls, ih]
      | reset now =>
          exact ih begun

theorem sinceRegistered_withoutResets
    (i : ℕ) (ops : List StatisticianOp) :
    sinceRegistered i (withoutResets ops) = withoutResets (sinceRegistered i ops) := by
  induction ops generalizing i with
  | nil =>
      cases i <;> rfl
  | cons op ops ih =>
      cases op with
      | addStream type =>
          cases i with
          | zero =>
              rfl
          | succ i =>
              exact ih i
      | reset now =>
          rw [sinceRegistered_of_not_add (by simp [StatisticianOp.isAddStream])]
          exact ih i
      | onFrameBegin index clock =>
          rw [sinceRegistered_of_not_add (by simp [StatisticianOp.isAddStream]), ← ih]
          exact sinceRegistered_of_not_add (by simp [StatisticianOp.isAddStream]) i _
      | onFrameEnd index frame timeNow =>
          rw [sinceRegistered_of_not_add (by simp [StatisticianOp.isAddStream]), ← ih]
          exact sinceRegistered_of_not_add (by simp [StatisticianOp.isAddStream]) i _

theorem registeredStreams_withoutResets
    (ops : List StatisticianOp) :
    registeredStreams (withoutResets ops) = registeredStreams ops := by
  rw [registeredStreams, withoutResets, List.countP_filter, registeredStreams]
  congr 1
  refine List.countP_congr fun op _ => ?_
  cases op <;> simp [StatisticianOp.isAddStream, StatisticianOp.isReset]

theorem counters_withoutResets
    (ops : List StatisticianOp) :
    (performAll streamerStatisticianCreate (withoutResets ops)).streamers.map
        (·.counters) =
      (performAll streamerStatisticianCreate ops).streamers.map (·.counters) := by
  rw [counters_performAll, counters_performAll, registeredStreams_withoutResets]
  refine List.map_congr_left fun i _ => ?_
  rw [sinceRegistered_withoutResets, endCalls_withoutResets]

/-- The sums count the calls of `onFrameEnd`, whatever resets there are, and an
operation on one stream leaves the records of the others alone. -/
theorem resets_lose_nothing
    (ops : List StatisticianOp) :
    ((performAll streamerStatisticianCreate ops).streamers.map (·.counters) =
      (List.range (registeredStreams ops)).map fun i =>
        .ofCalls (endCalls i 0 (sinceRegistered i ops))) ∧
    (∀ ops', withoutResets ops' = withoutResets ops →
      (performAll streamerStatisticianCreate ops').streamers.map (·.counters) =
        (performAll streamerStatisticianCreate ops).streamers.map (·.counters)) ∧
    ∀ op i j,
      op.stream (performAll streamerStatisticianCreate ops).streamers.length = some j →
      j ≠ i →
      (performAll streamerStatisticianCreate (ops ++ [op])).streamers[i]? =
        (performAll streamerStatisticianCreate ops).streamers[i]? := by
  refine ⟨counters_performAll ops, fun ops' hsame => ?_, fun op i j hop hne => ?_⟩
  · rw [← counters_withoutResets ops', hsame, counters_withoutResets ops]
  · have hwell : streamerStatisticianCreate.WellFormed := Nat.zero_le _
    rw [performAll, List.foldl_append]
    exact perform_of_ne (performAll_wellFormed hwell ops) hop hne

end Runs

/-- A video frame arrives after 20 ms and an audio frame at once; `resets` lie in
the wait. -/
def twoFrames (resets : List StatisticianOp) : List StatisticianOp :=
  [.addStream .audio, .addStream .video, .onFrameBegin 1 ⟨1000, 1000, 1000⟩] ++
    resets ++
    [.onFrameEnd 1 (some { mediaFrameCreate with size := 300 }) 21000,
      .onFrameBegin 0 ⟨21000, 21000, 21000⟩,
      .onFrameEnd 0 (some { mediaFrameCreate with size := 40 }) 21000]

theorem resets_lose_nothing_two :
    (performAll streamerStatisticianCreate
        (twoFrames [.reset fun _ => 11000])).streamers.map (·.counters) =
      [⟨1, 40, 0, 0⟩, ⟨1, 300, 1, 20⟩] ∧
    (performAll streamerStatisticianCreate
        (twoFrames [.reset fun _ => 11000] ++ [.onFrameEnd 1 none 22000])).streamers[0]? =
      (performAll streamerStatisticianCreate
        (twoFrames [.reset fun _ => 11000])).streamers[0]? := by
  have h := resets_lose_nothing (twoFrames [.reset fun _ => 11000])
  refine ⟨?_, h.2.2 (.onFrameEnd 1 none 22000) 0 1 rfl (by decide)⟩
  rw [← h.2.1 (twoFrames []) rfl]
  decide +kernel

end KoalaStreamer
