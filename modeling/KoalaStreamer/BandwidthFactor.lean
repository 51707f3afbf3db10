import KoalaStreamer.Library.EventMachine
import KoalaStreamer.StatisticianRecords
import Mathlib.Algebra.Order.BigOperators.Group.List
import Mathlib.Algebra.Order.Field.Basic
import Mathlib.Algebra.Order.Field.Rat
import Mathlib.Data.List.Induction
import Mathlib.Tactic.FieldSimp
import Mathlib.Tactic.Linarith
import Mathlib.Tactic.Ring

/-!
# streamStatistician.c: the bandwidth factor

The factor is 1 less the part of a period in which the mux thread has waited for
frames.  The waits of all streams are added up, and the period is that of the
stream registered last.  A reset starts a new period at once, also while the mux
thread waits; when that wait ends it is recorded in full.

The machine is the mux thread, which begins and ends frames one after the other,
beside a thread that resets the statistics.  The clock does not go back.

Main results:
* `MeterInv.total`: waits follow one another, so they never add up to more than
  the clock shows;
* `factor_is_fraction_iff`: the factor is a fraction as long as every wait that is
  recorded fits into the period it is recorded in.
-/

namespace KoalaStreamer

open EventMachine

/-- The loop of `getStreamBandWideFactor`: `wait_ms` and `start_time`. -/
def factorLoop (pHandle : StreamerStatistician) : BitVec 64 × Int :=
  pHandle.streamers.foldl
    (fun acc pStream =>
      (acc.1 + pStream.statistics.waitMs, pStream.statistics.startTime))
    (0, 0)

/-- The time that `getStreamBandWideFactor` divides by. -/
def factorTime (pHandle : StreamerStatistician) (now : Int) : Int :=
  now - (factorLoop pHandle).2

/-- `streamerStatistician_getStreamBandWideFactor`, in exact arithmetic. -/
def getStreamBandWideFactor (pHandle : StreamerStatistician) (now : Int) : ℚ :=
  1 - (((factorLoop pHandle).1.toNat : ℚ) / 1000) /
    ((factorTime pHandle now : ℚ) / 1000000)

/-- The waits are not longer than the time they are divided by, and the quotient,
when there is one, lies in [0, 1]. -/
structure FactorIsFraction (pHandle : StreamerStatistician) (now : Int) : Prop where
  fits : ((factorLoop pHandle).1.toNat : Int) * 1000 ≤ factorTime pHandle now
  fraction : factorTime pHandle now ≠ 0 →
    0 ≤ getStreamBandWideFactor pHandle now ∧ getStreamBandWideFactor pHandle now ≤ 1

/-! ## The mux thread and the resets -/

/-- What `get_time` can return. -/
abbrev ClockReading := { time : Int // 0 < time ∧ time < 2 ^ 63 }

structure MeterState where
  stat : StreamerStatistician
  /-- The last reading of the clock. -/
  clock : Int
  /-- The stream whose frame the mux thread has begun. -/
  pending : Option ℕ
  /-- A frame was begun before. -/
  begun : Bool

inductive MeterAction
  | begin (index : ℕ) (clock : BeginClock)
  | finish (frame : Option MediaFrame) (timeNow : Int)
  /-- The callback has failed: there is no `onFrameEnd`. -/
  | fail
  | reset (now : ℕ → Int)

abbrev MeterTransition := Transition MeterState MeterAction Empty

/-- The streams are registered and the mux thread begins. -/
def MeterState.start
    (types : List KoalaStreamType) (clock : ClockReading) : MeterState where
  stat := registerStreams types
  clock := clock.val
  pending := none
  begun := false

/-- The readings of the clock in `onFrameBegin` come one after the other. -/
def BeginClock.Ordered (clock : BeginClock) (before : Int) : Prop :=
  before ≤ clock.start ∧ clock.start ≤ clock.period ∧
    clock.period ≤ clock.frame ∧ clock.frame < 2 ^ 63

/-- The readings of the clock in `reset` come one after the other. -/
def ResetOrdered (now : ℕ → Int) (before : Int) (n : ℕ) : Prop :=
  ∀ i < n, before ≤ now i ∧ now i < 2 ^ 63 ∧ ∀ j < i, now j ≤ now i

instance (clock : BeginClock) (before : Int) : Decidable (clock.Ordered before) :=
  inferInstanceAs (Decidable (_ ∧ _))

instance (now : ℕ → Int) (before : Int) (n : ℕ) :
    Decidable (ResetOrdered now before n) :=
  inferInstanceAs (Decidable (∀ i < n, _))

/-- One operation on the statistician.  The frame begun first is one of the stream
registered last. -/
def meterStep : Machine MeterState MeterAction Empty
  | s, .begin index clock =>
      if s.pending = none ∧ index < s.stat.streamers.length ∧
          (s.begun = true ∨ index + 1 = s.stat.streamers.length) ∧
          clock.Ordered s.clock then
        some ({ stat := onFrameBegin s.stat index clock
                clock := clock.frame
                pending := some index
                begun := true }, [])
      else
        none
  | s, .finish frame timeNow =>
      match s.pending with
      | some index =>
          if s.clock ≤ timeNow ∧ timeNow < 2 ^ 63 then
            some ({ s with
              stat := onFrameEnd s.stat index frame timeNow
              clock := timeNow
              pending := none }, [])
          else
            none
      | none => none
  | s, .fail =>
      if s.pending.isSome then some ({ s with pending := none }, []) else none
  | s, .reset now =>
      if ResetOrdered now s.clock s.stat.streamers.length then
        some ({ s with
          stat := resetStatistician s.stat now
          clock :=
            if s.stat.streamers.length = 0 then s.clock
            else now (s.stat.streamers.length - 1) }, [])
      else
        none

/-! ## What the loop adds up -/

section Loop

variable {p : StreamerStatistician}

/-- The waits of all streams in the period, as a number without a bound. -/
def waitSum (p : StreamerStatistician) : ℕ :=
  (p.streamers.map fun r => r.statistics.waitMs.toNat).sum

/-- The begin of the period of the stream registered last. -/
def periodStart (p : StreamerStatistician) : Int :=
  (p.streamers.getLast?.map (·.statistics.startTime)).getD 0

theorem factorLoop_start
    (p : StreamerStatistician) : (factorLoop p).2 = periodStart p := by
  simp only [factorLoop, periodStart]
  induction p.streamers using List.reverseRecOn with
  | nil =>
      rfl
  | append_singleton rs r ih =>
      simp

theorem factorLoop_wait
    (h : waitSum p < 2 ^ 64) : (factorLoop p).1.toNat = waitSum p := by
  simp only [factorLoop, waitSum] at h ⊢
  generalize p.streamers = rs at h ⊢
  induction rs using List.reverseRecOn with
  | nil =>
      rfl
  | append_singleton rs r ih =>
      simp only [List.map_append, List.map_cons, List.map_nil, List.sum_append,
        List.sum_singleton, List.foldl_append, List.foldl_cons,
        List.foldl_nil] at h ⊢
      rw [BitVec.toNat_add, ih (by omega), Nat.mod_eq_of_lt h]

/-- Whether the factor is a fraction is a matter of the waits and the period. -/
theorem factorIsFraction_iff
    (h : waitSum p < 2 ^ 64) (now : Int) :
    FactorIsFraction p now ↔ (waitSum p : Int) * 1000 ≤ now - periodStart p := by
  have hwait := factorLoop_wait h
  have htime : factorTime p now = now - periodStart p := by
    rw [factorTime, factorLoop_start]
  constructor
  · intro hfraction
    rw [← htime, ← hwait]
    exact hfraction.fits
  · intro hfits
    have hle : ((factorLoop p).1.toNat : Int) * 1000 ≤ factorTime p now := by
      rw [htime, hwait]
      exact hfits
    refine ⟨hle, fun hne => ?_⟩
    have hpos : (0 : ℚ) < factorTime p now := by
      have hnonneg : 0 ≤ factorTime p now :=
        le_trans (Int.mul_nonneg (Int.natCast_nonneg _) (by decide)) hle
      exact_mod_cast lt_of_le_of_ne hnonneg (Ne.symm hne)
    have hcast : (((factorLoop p).1.toNat : ℕ) : ℚ) * 1000 ≤ factorTime p now := by
      exact_mod_cast hle
    have hnonneg : (0 : ℚ) ≤ ((factorLoop p).1.toNat : ℕ) := Nat.cast_nonneg _
    have hquot : (((factorLoop p).1.toNat : ℚ) / 1000) /
        ((factorTime p now : ℚ) / 1000000) =
        ((factorLoop p).1.toNat : ℚ) * 1000 / factorTime p now := by
      field_simp
      ring
    simp only [getStreamBandWideFactor]
    rw [hquot]
    constructor
    · rw [sub_nonneg, div_le_one hpos]
      exact hcast
    · rw [sub_le_self_iff]
      exact div_nonneg (by linarith) hpos.le

end Loop

/-! ## What an operation does to the sums -/

section Operations

variable {p : StreamerStatistician} {i : ℕ} {r : StreamStatistics}

theorem waitSum_onFrameBegin
    (h : p.WellFormed) (i : ℕ) (clock : BeginClock) :
    waitSum (onFrameBegin p i clock) = waitSum p := by
  simp only [waitSum, streamers_onFrameBegin h]
  cases hr : p.streamers[i]? with
  | none =>
      rw [modify_of_none hr]
  | some r =>
      have hsum := sum_map_modify hr (fun r => r.frameBegin clock)
        (fun r => r.statistics.waitMs.toNat)
      exact Nat.add_right_cancel hsum

/-- The period of a begun period stays. -/
theorem periodStart_onFrameBegin
    (h : p.WellFormed) (i : ℕ) (clock : BeginClock) (hne : periodStart p ≠ 0) :
    periodStart (onFrameBegin p i clock) = periodStart p := by
  simp only [periodStart, streamers_onFrameBegin h, getLast?_modify] at hne ⊢
  split
  · cases hl : p.streamers.getLast? with
    | none =>
        rfl
    | some r =>
        simp only [hl, Option.map_some, Option.getD_some] at hne
        simp [StreamStatistics.frameBegin, hne]
  · rfl

/-- The first period begins with a frame of the stream registered last. -/
theorem periodStart_onFrameBegin_first
    (h : p.WellFormed) {i : ℕ} (clock : BeginClock)
    (hi : i + 1 = p.streamers.length) (hzero : periodStart p = 0) :
    periodStart (onFrameBegin p i clock) = clock.period := by
  have hne : p.streamers ≠ [] := by
    intro hnil
    rw [hnil] at hi
    cases hi
  have hl := List.getLast?_eq_some_getLast hne
  simp only [periodStart, hl, Option.map_some, Option.getD_some] at hzero
  simp only [periodStart, streamers_onFrameBegin h, getLast?_modify, if_pos hi, hl]
  simp [StreamStatistics.frameBegin, hzero]

theorem periodStart_onFrameEnd
    (h : p.WellFormed) (i : ℕ) (frame : Option MediaFrame) (timeNow : Int) :
    periodStart (onFrameEnd p i frame timeNow) = periodStart p := by
  cases frame with
  | none =>
      rfl
  | some frame =>
      simp only [periodStart, streamers_onFrameEnd h, getLast?_modify]
      split
      · cases p.streamers.getLast? <;> rfl
      · rfl

theorem recordedWait_le
    {frameStartTime timeNow : Int} (h : frameStartTime ≤ timeNow) :
    (recordedWait frameStartTime timeNow : Int) * 1000 ≤ timeNow - frameStartTime := by
  have hnonneg : 0 ≤ timeNow - frameStartTime := by omega
  rw [recordedWait, Int.tdiv_eq_ediv_of_nonneg hnonneg]
  split <;> omega

theorem toNat_waitMs
    {frame : MediaFrame} {timeNow : Int}
    (h : r.frameStartTime ≤ timeNow)
    (hroom : r.statistics.waitMs.toNat + recordedWait r.frameStartTime timeNow < 2 ^ 64) :
    (r.frameEnd frame timeNow).statistics.waitMs.toNat =
      r.statistics.waitMs.toNat + recordedWait r.frameStartTime timeNow := by
  have hnonneg : 0 ≤ timeNow - r.frameStartTime := by omega
  simp only [StreamStatistics.frameEnd, recordedWait] at hroom ⊢
  split
  · rename_i hlong
    rw [if_pos hlong] at hroom
    have hdelay : (BitVec.ofInt 64 ((timeNow - r.frameStartTime).tdiv 1000)).toNat =
        ((timeNow - r.frameStartTime).tdiv 1000).toNat := by
      rw [BitVec.toNat_ofInt, Int.emod_eq_of_lt (by omega) (by omega)]
    rw [BitVec.toNat_add, hdelay, Nat.mod_eq_of_lt hroom]
  · rfl

/-- The end of a frame adds its wait. -/
theorem waitSum_onFrameEnd
    (h : p.WellFormed) (hr : p.streamers[i]? = some r)
    (frame : MediaFrame) {timeNow : Int} (hle : r.frameStartTime ≤ timeNow)
    (hroom : waitSum p + recordedWait r.frameStartTime timeNow < 2 ^ 64) :
    waitSum (onFrameEnd p i (some frame) timeNow) =
      waitSum p + recordedWait r.frameStartTime timeNow := by
  have hmem : r.statistics.waitMs.toNat ≤ waitSum p :=
    List.le_sum_of_mem (List.mem_map_of_mem (List.mem_of_getElem? hr))
  have hsum := sum_map_modify hr (fun r => r.frameEnd frame timeNow)
    (fun r => r.statistics.waitMs.toNat)
  rw [toNat_waitMs hle (by omega)] at hsum
  simp only [waitSum, streamers_onFrameEnd h] at hsum ⊢
  omega

theorem waitSum_reset
    (p : StreamerStatistician) (now : ℕ → Int) :
    waitSum (resetStatistician p now) = 0 := by
  simp only [waitSum, resetStatistician]
  refine List.sum_eq_zero fun x hx => ?_
  obtain ⟨r, hr, rfl⟩ := List.mem_map.mp hx
  obtain ⟨i, _, rfl⟩ := List.mem_mapIdx.mp hr
  rfl

theorem periodStart_reset
    (p : StreamerStatistician) (now : ℕ → Int) :
    periodStart (resetStatistician p now) =
      if p.streamers.length = 0 then 0 else now (p.streamers.length - 1) := by
  simp only [periodStart, resetStatistician]
  cases hl : p.streamers using List.reverseRecOn with
  | nil =>
      rfl
  | append_singleton rs r =>
      simp [List.mapIdx_append, StreamStatistics.reset]

end Operations

/-! ## Runs -/

section Runs

variable {types : List KoalaStreamType} {clock : ClockReading} {s s' : MeterState}
  {a : MeterAction} {es : List Empty} {tr : List MeterTransition}

/-- At every later time the factor is a fraction. -/
def AlwaysFraction (s : MeterState) : Prop :=
  ∀ now, s.clock ≤ now → FactorIsFraction s.stat now

/-- The frame that is ended was begun in this period, or the wait that is recorded
for it is not longer than the period so far. -/
def WaitFits (τ : MeterTransition) : Prop :=
  match τ.action, τ.src.pending with
  | .finish (some _) timeNow, some index =>
      ∀ r ∈ τ.src.stat.streamers[index]?,
        periodStart τ.src.stat ≤ r.frameStartTime ∨
        (recordedWait r.frameStartTime timeNow : Int) * 1000 ≤
          timeNow - periodStart τ.src.stat
  | _, _ => True

instance : DecidablePred WaitFits
  | ⟨⟨stat, _, some index, _⟩, .finish (some _) _, _, _⟩ =>
      inferInstanceAs (Decidable (∀ r ∈ stat.streamers[index]?, _ ∨ _))
  | ⟨⟨_, _, none, _⟩, .finish (some _) _, _, _⟩ => inferInstanceAs (Decidable True)
  | ⟨_, .finish none _, _, _⟩ => inferInstanceAs (Decidable True)
  | ⟨_, .begin _ _, _, _⟩ => inferInstanceAs (Decidable True)
  | ⟨_, .fail, _, _⟩ => inferInstanceAs (Decidable True)
  | ⟨_, .reset _, _, _⟩ => inferInstanceAs (Decidable True)

/-- What holds in every state of a run. -/
structure MeterInv (s : MeterState) : Prop where
  wellFormed : s.stat.WellFormed
  clock_pos : 0 < s.clock
  clock_lt : s.clock < 2 ^ 63
  start_nonneg : 0 ≤ periodStart s.stat
  start_le : periodStart s.stat ≤ s.clock
  fresh : s.begun = false → waitSum s.stat = 0 ∧ s.pending = none
  entered : s.begun = true → 0 < periodStart s.stat
  idle : s.pending = none → (waitSum s.stat : Int) * 1000 ≤ s.clock
  asking : ∀ i ∈ s.pending, ∃ r ∈ s.stat.streamers[i]?,
    r.frameStartTime ≤ s.clock ∧ (waitSum s.stat : Int) * 1000 ≤ r.frameStartTime

/-- What holds as long as every wait fits. -/
structure FractionInv (s : MeterState) : Prop where
  idle : s.pending = none →
    (waitSum s.stat : Int) * 1000 ≤ s.clock - periodStart s.stat
  asking : ∀ i ∈ s.pending, ∀ r ∈ s.stat.streamers[i]?,
    waitSum s.stat = 0 ∨
    (waitSum s.stat : Int) * 1000 ≤ r.frameStartTime - periodStart s.stat

/-- Waits follow one another. -/
theorem MeterInv.total
    (h : MeterInv s) : (waitSum s.stat : Int) * 1000 ≤ s.clock := by
  cases hpending : s.pending with
  | none =>
      exact h.idle hpending
  | some i =>
      obtain ⟨r, _, hle, hsum⟩ := h.asking i hpending
      exact hsum.trans hle

theorem MeterInv.waitSum_lt
    (h : MeterInv s) : waitSum s.stat < 2 ^ 64 := by
  have htotal := h.total
  have hlt := h.clock_lt
  omega

theorem MeterInv.alwaysFraction_iff
    (h : MeterInv s) :
    AlwaysFraction s ↔
      (waitSum s.stat : Int) * 1000 ≤ s.clock - periodStart s.stat := by
  constructor
  · exact fun hall =>
      (factorIsFraction_iff h.waitSum_lt _).mp (hall s.clock le_rfl)
  · intro hle now hnow
    exact (factorIsFraction_iff h.waitSum_lt now).mpr (by omega)

theorem FractionInv.fits
    (hinv : MeterInv s) (h : FractionInv s) :
    (waitSum s.stat : Int) * 1000 ≤ s.clock - periodStart s.stat := by
  have hstart := hinv.start_le
  cases hpending : s.pending with
  | none =>
      exact h.idle hpending
  | some i =>
      obtain ⟨r, hr, hle, _⟩ := hinv.asking i hpending
      rcases h.asking i hpending r hr with hzero | hfits <;> omega

theorem meterStart_inv
    (types : List KoalaStreamType) (clock : ClockReading) :
    MeterInv (MeterState.start types clock) ∧
    FractionInv (MeterState.start types clock) := by
  obtain ⟨hwell, hzero⟩ := registerStreams_fresh types
  obtain ⟨hpos, hlt⟩ := clock.property
  have hwait : waitSum (MeterState.start types clock).stat = 0 := by
    refine List.sum_eq_zero fun x hx => ?_
    obtain ⟨r, hr, rfl⟩ := List.mem_map.mp hx
    rw [hzero r hr]
    rfl
  have hstart : periodStart (MeterState.start types clock).stat = 0 := by
    simp only [MeterState.start, periodStart]
    cases hl : (registerStreams types).streamers.getLast? with
    | none =>
        rfl
    | some r =>
        have hr := hzero r (List.mem_of_getLast? hl)
        simp [hr, StatisticsData.zero]
  have hclock : 0 < (MeterState.start types clock).clock := hpos
  constructor
  · exact {
      wellFormed := hwell
      clock_pos := hpos
      clock_lt := hlt
      start_nonneg := by omega
      start_le := by omega
      fresh := fun _ => ⟨hwait, rfl⟩
      entered := fun hbegun => by cases hbegun
      idle := fun _ => by omega
      asking := fun i hi => by cases hi }
  · exact {
      idle := fun _ => by omega
      asking := fun i hi => by cases hi }

/-! ### The steps -/

/-- The begin of a frame begins the first period and keeps every other one. -/
theorem MeterInv.periodStart_begin
    {i : ℕ} (h : MeterInv s) (reading : BeginClock)
    (hfirst : s.begun = true ∨ i + 1 = s.stat.streamers.length) :
    (0 < periodStart s.stat ∧
      periodStart (onFrameBegin s.stat i reading) = periodStart s.stat) ∨
    (waitSum s.stat = 0 ∧
      periodStart (onFrameBegin s.stat i reading) = reading.period) := by
  have hnonneg := h.start_nonneg
  by_cases hzero : periodStart s.stat = 0
  · cases hbegun : s.begun with
    | true =>
        exact absurd hzero (h.entered hbegun).ne'
    | false =>
        rw [hbegun] at hfirst
        have hi := hfirst.resolve_left Bool.false_ne_true
        exact Or.inr ⟨(h.fresh hbegun).1,
          periodStart_onFrameBegin_first h.wellFormed reading hi hzero⟩
  · exact Or.inl ⟨by omega, periodStart_onFrameBegin h.wellFormed i reading hzero⟩

theorem MeterInv.begin
    {i : ℕ} {reading : BeginClock}
    (h : MeterInv s) (hidle : s.pending = none) (hi : i < s.stat.streamers.length)
    (hfirst : s.begun = true ∨ i + 1 = s.stat.streamers.length)
    (hclock : reading.Ordered s.clock)
    (hs' : s' = { stat := onFrameBegin s.stat i reading
                  clock := reading.frame
                  pending := some i
                  begun := true }) :
    MeterInv s' ∧ (FractionInv s → FractionInv s') := by
  subst hs'
  obtain ⟨hstart, hperiod, hframe, hlt⟩ := hclock
  have hpos := h.clock_pos
  have hle := h.start_le
  have hwait := waitSum_onFrameBegin h.wellFormed i reading
  have hsum := h.idle hidle
  obtain ⟨r, hr⟩ : ∃ r, s.stat.streamers[i]? = some r :=
    ⟨_, List.getElem?_eq_getElem hi⟩
  have hr' : (onFrameBegin s.stat i reading).streamers[i]? =
      some (r.frameBegin reading) := by
    rw [streamers_onFrameBegin h.wellFormed, List.getElem?_modify_eq, hr]
    rfl
  have hbegin := h.periodStart_begin reading hfirst
  constructor
  · exact {
      wellFormed := wellFormed_of_length h.wellFormed
        (length_onFrameBegin h.wellFormed i reading)
      clock_pos := by dsimp only; omega
      clock_lt := hlt
      start_nonneg := by dsimp only; omega
      start_le := by dsimp only; omega
      fresh := fun hbegun => by cases hbegun
      entered := fun _ => by dsimp only; omega
      idle := fun hpending => by cases hpending
      asking := by
        rintro _ ⟨⟩
        refine ⟨_, hr', le_rfl, ?_⟩
        rw [hwait]
        exact hsum.trans (by simp only [StreamStatistics.frameBegin]; omega) }
  · intro hfraction
    have hfits := hfraction.idle hidle
    refine ⟨fun hpending => (by cases hpending), ?_⟩
    rintro _ ⟨⟩ r' hr''
    obtain rfl : r.frameBegin reading = r' := Option.some.inj (hr'.symm.trans hr'')
    simp only [hwait, StreamStatistics.frameBegin]
    omega

/-- The callback has returned and no frame is ended. -/
theorem MeterInv.done
    {timeNow : Int}
    (h : MeterInv s) (hle : s.clock ≤ timeNow) (hlt : timeNow < 2 ^ 63)
    (hs' : s' = { s with clock := timeNow, pending := none }) :
    MeterInv s' ∧ (FractionInv s → FractionInv s') := by
  subst hs'
  have hpos := h.clock_pos
  have hstart := h.start_le
  have htotal := h.total
  constructor
  · exact {
      wellFormed := h.wellFormed
      clock_pos := by dsimp only; omega
      clock_lt := hlt
      start_nonneg := h.start_nonneg
      start_le := by dsimp only; omega
      fresh := fun hbegun => ⟨(h.fresh hbegun).1, rfl⟩
      entered := h.entered
      idle := fun _ => by dsimp only; omega
      asking := fun i hi => by cases hi }
  · intro hfraction
    have hfits := hfraction.fits h
    exact {
      idle := fun _ => by dsimp only; omega
      asking := fun i hi => by cases hi }

/-- A frame is ended: its wait lies between its begin and now. -/
theorem MeterInv.finish
    {i : ℕ} {timeNow : Int}
    (h : MeterInv s) (frame : MediaFrame) (hpending : s.pending = some i)
    (hle : s.clock ≤ timeNow) (hlt : timeNow < 2 ^ 63)
    (hs' : s' = { s with
      stat := onFrameEnd s.stat i (some frame) timeNow
      clock := timeNow
      pending := none }) :
    MeterInv s' ∧
    ∃ r ∈ s.stat.streamers[i]?, r.frameStartTime ≤ timeNow ∧
      waitSum s'.stat = waitSum s.stat + recordedWait r.frameStartTime timeNow ∧
      periodStart s'.stat = periodStart s.stat := by
  subst hs'
  have hpos := h.clock_pos
  have hnonneg := h.start_nonneg
  have hstart := h.start_le
  obtain ⟨r, hr, hbegun, hsum⟩ := h.asking i hpending
  have hwait := recordedWait_le (hbegun.trans hle)
  have hsum' := waitSum_onFrameEnd h.wellFormed hr frame (hbegun.trans hle) (by omega)
  have hstart' := periodStart_onFrameEnd h.wellFormed i (some frame) timeNow
  refine ⟨?_, r, hr, hbegun.trans hle, hsum', hstart'⟩
  exact {
    wellFormed := wellFormed_of_length h.wellFormed
      (length_onFrameEnd h.wellFormed i (some frame) timeNow)
    clock_pos := by dsimp only; omega
    clock_lt := hlt
    start_nonneg := by dsimp only; omega
    start_le := by dsimp only; omega
    fresh := fun hbegun => by
      rw [(h.fresh hbegun).2] at hpending
      cases hpending
    entered := fun hbegun => by
      have := h.entered hbegun
      dsimp only
      omega
    idle := fun _ => by dsimp only; omega
    asking := fun i hi => by cases hi }

theorem MeterInv.reset
    {now : ℕ → Int}
    (h : MeterInv s) (hnow : ResetOrdered now s.clock s.stat.streamers.length)
    (hs' : s' = { s with
      stat := resetStatistician s.stat now
      clock :=
        if s.stat.streamers.length = 0 then s.clock
        else now (s.stat.streamers.length - 1) }) :
    MeterInv s' ∧ FractionInv s' := by
  have hpos := h.clock_pos
  have hlt := h.clock_lt
  have hwait : waitSum s'.stat = 0 := by
    rw [hs']
    exact waitSum_reset s.stat now
  have hclock : s.clock ≤ s'.clock ∧ s'.clock < 2 ^ 63 ∧
      0 ≤ periodStart s'.stat ∧ periodStart s'.stat ≤ s'.clock ∧
      (s.stat.streamers.length ≠ 0 → 0 < periodStart s'.stat) := by
    rw [hs']
    simp only [periodStart_reset]
    split
    · omega
    · have hlast := hnow (s.stat.streamers.length - 1) (by omega)
      omega
  have hlength : s.begun = true → s.stat.streamers.length ≠ 0 := by
    intro hbegun hzero
    have hstart := h.entered hbegun
    rw [periodStart, List.length_eq_zero_iff.mp hzero] at hstart
    exact Int.lt_irrefl 0 hstart
  have hbegun : s'.begun = s.begun ∧ s'.pending = s.pending := by
    rw [hs']
    exact ⟨rfl, rfl⟩
  constructor
  · exact {
      wellFormed := by
        rw [hs']
        exact wellFormed_of_length h.wellFormed (length_reset s.stat now)
      clock_pos := by omega
      clock_lt := hclock.2.1
      start_nonneg := hclock.2.2.1
      start_le := hclock.2.2.2.1
      fresh := fun hfresh => by
        rw [hbegun.1] at hfresh
        exact ⟨hwait, hbegun.2.trans (h.fresh hfresh).2⟩
      entered := fun hentered => by
        rw [hbegun.1] at hentered
        exact hclock.2.2.2.2 (hlength hentered)
      idle := fun _ => by omega
      asking := fun i hi => by
        rw [hbegun.2] at hi
        obtain ⟨r, hr, hle, hsum⟩ := h.asking i hi
        refine ⟨r.reset (now i), ?_, hle.trans hclock.1, ?_⟩
        · rw [hs']
          simp only [resetStatistician, List.getElem?_mapIdx]
          rw [Option.mem_def.mp hr]
          rfl
        · rw [hwait]
          exact le_trans (by omega) hsum }
  · exact ⟨fun _ => by omega, fun _ _ _ _ => Or.inl hwait⟩

/-- Whether the recorded wait fits, with the record of the stream at hand. -/
theorem waitFits_finish
    {i : ℕ} {r : StreamStatistics} {frame : MediaFrame} {timeNow : Int}
    (hpending : s.pending = some i) (hr : r ∈ s.stat.streamers[i]?) :
    WaitFits ⟨s, .finish (some frame) timeNow, es, s'⟩ ↔
      periodStart s.stat ≤ r.frameStartTime ∨
      (recordedWait r.frameStartTime timeNow : Int) * 1000 ≤
        timeNow - periodStart s.stat := by
  simp only [WaitFits, hpending, Option.mem_def.mp hr, Option.mem_some_iff,
    forall_eq']

/-- A wait that fits is added to waits that came before it. -/
theorem FractionInv.finish
    {i : ℕ} {r : StreamStatistics} {frame : MediaFrame} {timeNow : Int}
    (h : FractionInv s)
    (hpending : s.pending = some i) (hr : r ∈ s.stat.streamers[i]?)
    (hbegun : r.frameStartTime ≤ timeNow)
    (hclock : s'.clock = timeNow) (hdone : s'.pending = none)
    (hsum : waitSum s'.stat = waitSum s.stat + recordedWait r.frameStartTime timeNow)
    (hstart : periodStart s'.stat = periodStart s.stat)
    (hfits : WaitFits ⟨s, .finish (some frame) timeNow, es, s'⟩) :
    FractionInv s' := by
  have hwait := recordedWait_le hbegun
  have hbefore := h.asking i hpending r hr
  rw [waitFits_finish hpending hr] at hfits
  refine ⟨fun _ => ?_, fun j hj => ?_⟩
  · rw [hsum, hstart, hclock]
    push_cast
    omega
  · rw [hdone] at hj
    cases hj

/-- A wait that does not fit is too long without any other. -/
theorem waitFits_of_alwaysFraction
    {i : ℕ} {r : StreamStatistics} {frame : MediaFrame} {timeNow : Int}
    (hnext : MeterInv s')
    (hpending : s.pending = some i) (hr : r ∈ s.stat.streamers[i]?)
    (hclock : s'.clock = timeNow)
    (hsum : waitSum s'.stat = waitSum s.stat + recordedWait r.frameStartTime timeNow)
    (hstart : periodStart s'.stat = periodStart s.stat)
    (hall : AlwaysFraction s') :
    WaitFits ⟨s, .finish (some frame) timeNow, es, s'⟩ := by
  rw [hnext.alwaysFraction_iff, hsum, hstart, hclock] at hall
  push_cast at hall
  rw [waitFits_finish hpending hr]
  omega

/-- One step: it keeps the invariants if the wait it records fits, and else the
factor is no fraction any more. -/
theorem meterStep_inv
    (hinv : MeterInv s) (hstep : meterStep s a = some (s', es)) :
    MeterInv s' ∧
    (FractionInv s → WaitFits ⟨s, a, es, s'⟩ → FractionInv s') ∧
    (AlwaysFraction s' → WaitFits ⟨s, a, es, s'⟩) := by
  cases a with
  | begin i reading =>
      simp only [meterStep] at hstep
      split at hstep
      · rename_i hguard
        obtain ⟨hidle, hi, hfirst, hclock⟩ := hguard
        cases hstep
        obtain ⟨hnext, hfraction⟩ := hinv.begin hidle hi hfirst hclock rfl
        exact ⟨hnext, fun h _ => hfraction h, fun _ => trivial⟩
      · cases hstep
  | finish frame timeNow =>
      cases hpending : s.pending with
      | none =>
          simp only [meterStep, hpending] at hstep
          cases hstep
      | some i =>
          simp only [meterStep, hpending] at hstep
          split at hstep
          · rename_i hclock
            cases hstep
            cases frame with
            | none =>
                obtain ⟨hnext, hfraction⟩ := hinv.done hclock.1 hclock.2 rfl
                exact ⟨hnext, fun h _ => hfraction h, fun _ => trivial⟩
            | some frame =>
                obtain ⟨hnext, r, hr, hbegun, hsum, hstart⟩ :=
                  hinv.finish frame hpending hclock.1 hclock.2 rfl
                exact ⟨hnext,
                  fun h => h.finish hpending hr hbegun rfl rfl hsum hstart,
                  waitFits_of_alwaysFraction hnext hpending hr rfl hsum hstart⟩
          · cases hstep
  | fail =>
      simp only [meterStep] at hstep
      split at hstep
      · cases hstep
        obtain ⟨hnext, hfraction⟩ := hinv.done le_rfl hinv.clock_lt rfl
        exact ⟨hnext, fun h _ => hfraction h, fun _ => trivial⟩
      · cases hstep
  | reset now =>
      simp only [meterStep] at hstep
      split at hstep
      · rename_i hnow
        cases hstep
        obtain ⟨hnext, hfraction⟩ := hinv.reset hnow rfl
        exact ⟨hnext, fun _ _ => hfraction, fun _ => trivial⟩
      · cases hstep

theorem run_meterInv
    (run : Run meterStep (MeterState.start types clock) tr s) : MeterInv s := by
  refine Run.invariant (fun _ s => MeterInv s) ?_ ?_ run
  · exact (meterStart_inv types clock).1
  · intro tr s a es t hinv hstep
    exact (meterStep_inv hinv hstep).1

/-- As long as every wait fits, the factor is a fraction. -/
theorem run_fractionInv
    (run : Run meterStep (MeterState.start types clock) tr s)
    (hfits : ∀ τ ∈ tr, WaitFits τ) : MeterInv s ∧ FractionInv s := by
  refine Run.invariant_of WaitFits (fun _ s => MeterInv s ∧ FractionInv s) ?_ ?_ run hfits
  · exact meterStart_inv types clock
  · intro tr s a es t hinv hstep hfits
    obtain ⟨hnext, hkeeps, _⟩ := meterStep_inv hinv.1 hstep
    exact ⟨hnext, hkeeps hinv.2 hfits⟩

/-- The factor is a fraction in every state of a run if and only if every wait
that is recorded fits into the period it is recorded in. -/
theorem factor_is_fraction_iff
    (run : Run meterStep (MeterState.start types clock) tr s) :
    (AlwaysFraction (MeterState.start types clock) ∧
      ∀ τ ∈ tr, AlwaysFraction τ.dst) ↔
    ∀ τ ∈ tr, WaitFits τ := by
  have halways : ∀ {tr s}, Run meterStep (MeterState.start types clock) tr s →
      (∀ τ ∈ tr, WaitFits τ) → AlwaysFraction s := by
    intro tr s run hfits
    obtain ⟨hinv, hfraction⟩ := run_fractionInv run hfits
    exact hinv.alwaysFraction_iff.mpr (hfraction.fits hinv)
  constructor
  · rintro ⟨_, hall⟩ τ hτ
    obtain ⟨tr', _, run'⟩ := run.prefix_of_mem τ hτ
    exact (meterStep_inv (run_meterInv run') (run.valid τ hτ)).2.2 (hall τ hτ)
  · intro hfits
    refine ⟨halways Run.nil (by simp), fun τ hτ => ?_⟩
    obtain ⟨tr', hpre, run'⟩ := run.prefix_of_mem τ hτ
    have hstep : Run meterStep (MeterState.start types clock) (tr' ++ [τ]) τ.dst :=
      Run.snoc run' (run.valid τ hτ)
    exact halways hstep fun τ' hτ' => hfits τ' (hpre.subset hτ')

end Runs

/-- Two streams are registered, and the frames begin after the first second. -/
def twoStreams : MeterState :=
  MeterState.start [.audio, .video] ⟨1000000, by decide⟩

/-- All readings of the clock in one `onFrameBegin`. -/
def BeginClock.at (time : Int) : BeginClock := ⟨time, time, time⟩

/-- A reset between two frames. -/
def resetBetween : List MeterAction :=
  [.begin 1 (.at 1000000), .finish (some mediaFrameCreate) 1020000,
    .reset fun _ => 1030000,
    .begin 0 (.at 1030000), .finish (some mediaFrameCreate) 1045000]

theorem factor_is_fraction_iff_between :
    ∃ tr s, Run meterStep twoStreams tr s ∧
      waitSum s.stat = 15 ∧
      ∀ τ ∈ tr, AlwaysFraction τ.dst := by
  obtain ⟨tr, s, run, hwait, hfits⟩ :=
    Run.exists_of_exec meterStep twoStreams resetBetween
      (fun r => waitSum r.2.stat = 15 ∧ ∀ τ ∈ r.1, WaitFits τ)
      (by decide +kernel)
  exact ⟨tr, s, run, hwait, ((factor_is_fraction_iff run).mpr hfits).2⟩

/-- A reset while the mux thread waits. -/
def resetWithin : List MeterAction :=
  [.begin 1 (.at 1000000), .reset fun _ => 2000000,
    .finish (some mediaFrameCreate) 2001000]

/-- A wait of more than a second is recorded in a period of a millisecond. -/
theorem factor_is_fraction_fails_within :
    ∃ tr s, Run meterStep twoStreams tr s ∧
      getStreamBandWideFactor s.stat s.clock = -1000 ∧
      ¬ ∀ τ ∈ tr, AlwaysFraction τ.dst := by
  obtain ⟨tr, s, run, hfactor, τ, hτ, hlong⟩ :=
    Run.exists_of_exec meterStep twoStreams resetWithin
      (fun r => getStreamBandWideFactor r.2.stat r.2.clock = -1000 ∧
        ∃ τ ∈ r.1, factorTime τ.dst.stat τ.dst.clock <
          ((factorLoop τ.dst.stat).1.toNat : Int) * 1000)
      (by decide +kernel)
  exact ⟨tr, s, run, hfactor, fun hall =>
    Int.not_le.mpr hlong (hall τ hτ τ.dst.clock le_rfl).fits⟩

end KoalaStreamer
