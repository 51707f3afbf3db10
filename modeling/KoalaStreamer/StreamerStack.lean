import KoalaStreamer.Library.RingWindow
import Mathlib.Data.List.ReduceOption
import Mathlib.Tactic

/-!
# utils/StreamerStack.h: the bounded containers

`StreamerFiFo` is the ring buffer behind every frame queue and `StreamerStack`
is the frame pool.  Both are modelled with their own fields.  Array accesses
and the modulus are checked: an access outside the array, a read of a cell
that was never written and a modulus by zero are faults.

`FiFo` and `Stack` carry the representation invariant as a field.  On them the
operations cannot fault, and `contents` (head to tail, bottom to top) says what
each operation does.
-/

namespace KoalaStreamer

/-- What an unchecked C++ access could run into. -/
inductive Fault
  | indexOutOfRange
  | uninitialisedRead
  | moduloByZero
deriving DecidableEq, Repr

section Memory

variable {T : Type}

/-- `mData[i] = x` on an array from `new T[n]`. -/
def store (d : List (Option T)) (i : ℕ) (x : T) :
    Except Fault (List (Option T)) :=
  if i < d.length then .ok (d.set i (some x)) else .error .indexOutOfRange

/-- Read `mData[i]`. -/
def load (d : List (Option T)) (i : ℕ) : Except Fault T :=
  match d[i]? with
  | none => .error .indexOutOfRange
  | some none => .error .uninitialisedRead
  | some (some x) => .ok x

/-- `a % b`. -/
def cMod (a b : ℕ) : Except Fault ℕ :=
  if b = 0 then .error .moduloByZero else .ok (a % b)

/-- The value of a computation that does not fault. -/
def valueOf {α : Type} (r : Except Fault α) (h : ∃ a, r = .ok a) : α :=
  match r, h with
  | .ok a, _ => a
  | .error _, h => absurd h (fun ⟨_, ha⟩ => nomatch ha)

theorem valueOf_spec
    {α : Type} {r : Except Fault α} (h : ∃ a, r = .ok a) :
    r = .ok (valueOf r h) := by
  obtain ⟨a, rfl⟩ := h
  rfl

end Memory

/-! ## StreamerFiFo -/

section FiFoSection

variable {T : Type}

/-- The ring buffer.  A cell is `none` until it is first written. -/
structure StreamerFiFo (T : Type) where
  mCapacity : ℕ
  mHeader : ℕ
  mTail : ℕ
  mData : List (Option T)
  mSize : ℕ

namespace StreamerFiFo

/-- The constructor: `new T[mCapacity]`, all indices zero. -/
def init (capacity : ℕ) : StreamerFiFo T where
  mCapacity := capacity
  mHeader := 0
  mTail := 0
  mData := List.replicate capacity none
  mSize := 0

def size (q : StreamerFiFo T) : ℕ :=
  q.mSize

def isEmpty (q : StreamerFiFo T) : Bool :=
  q.mSize == 0

def isFull (q : StreamerFiFo T) : Bool :=
  q.mSize == q.mCapacity

/-- Append at the tail; -1 and no change when full. -/
def put (q : StreamerFiFo T) (data : T) :
    Except Fault (Int × StreamerFiFo T) :=
  if q.isFull then
    .ok (-1, q)
  else do
    let mData ← store q.mData q.mTail data
    let mTail ← cMod (q.mTail + 1) q.mCapacity
    .ok (0, { q with mData := mData, mTail := mTail, mSize := q.mSize + 1 })

/-- Remove the head; `none` is the NULL returned when empty. -/
def get (q : StreamerFiFo T) :
    Except Fault (Option T × StreamerFiFo T) :=
  if q.isEmpty then
    .ok (none, q)
  else do
    let data ← load q.mData q.mHeader
    let mHeader ← cMod (q.mHeader + 1) q.mCapacity
    .ok (some data, { q with mHeader := mHeader, mSize := q.mSize - 1 })

/-- Look at the head. -/
def peak (q : StreamerFiFo T) : Except Fault (Option T) :=
  if q.isEmpty then
    .ok none
  else do
    let data ← load q.mData q.mHeader
    .ok (some data)

/-- The frames in the buffer, from head to tail. -/
def contents (q : StreamerFiFo T) : List T :=
  (RingWindow.window q.mData q.mHeader q.mSize).reduceOption

/-- Representation invariant of the ring buffer. -/
structure Wf (q : StreamerFiFo T) : Prop where
  data_length : q.mData.length = q.mCapacity
  size_le : q.mSize ≤ q.mCapacity
  header_mod : q.mHeader % q.mCapacity = q.mHeader
  tail_eq : q.mTail = (q.mHeader + q.mSize) % q.mCapacity
  filled : ∃ xs : List T,
    RingWindow.window q.mData q.mHeader q.mSize = xs.map some

theorem reduceOption_map_some
    (xs : List T) :
    (xs.map some).reduceOption = xs := by
  induction xs with
  | nil =>
      rfl
  | cons x xs ih =>
      rw [List.map_cons, List.reduceOption_cons_of_some, ih]

theorem init_wf
    (capacity : ℕ) :
    (init capacity : StreamerFiFo T).Wf where
  data_length := by simp [init]
  size_le := by simp [init]
  header_mod := by simp [init]
  tail_eq := by simp [init]
  filled := ⟨[], by simp [init]⟩

theorem contents_of_window
    {q : StreamerFiFo T} {xs : List T}
    (h : RingWindow.window q.mData q.mHeader q.mSize = xs.map some) :
    q.contents = xs := by
  simp only [contents]
  rw [h, reduceOption_map_some]

namespace Wf

variable {q : StreamerFiFo T}

theorem window_eq
    (hq : q.Wf) :
    RingWindow.window q.mData q.mHeader q.mSize = q.contents.map some := by
  obtain ⟨xs, hxs⟩ := hq.filled
  rw [contents_of_window hxs, hxs]

theorem length_contents
    (hq : q.Wf) :
    q.contents.length = q.mSize := by
  have hlen : (RingWindow.window q.mData q.mHeader q.mSize).length = q.mSize :=
    RingWindow.length_window _ (by rw [hq.data_length]; exact hq.size_le)
  rw [hq.window_eq, List.length_map] at hlen
  exact hlen

/-- What `put` does on a well-formed buffer that is not full. -/
theorem put_eq
    (hq : q.Wf) (data : T) (hfull : q.isFull = false) :
    q.put data = .ok (0,
      { q with
        mData := q.mData.set ((q.mHeader + q.mSize) % q.mCapacity) (some data)
        mTail := ((q.mHeader + q.mSize) % q.mCapacity + 1) % q.mCapacity
        mSize := q.mSize + 1 }) := by
  have hne : q.mSize ≠ q.mCapacity := by simpa [isFull] using hfull
  have hpos : 0 < q.mCapacity := by have := hq.size_le; omega
  have hidx : (q.mHeader + q.mSize) % q.mCapacity < q.mData.length := by
    rw [hq.data_length]
    exact Nat.mod_lt _ hpos
  simp [put, hfull, hq.tail_eq, store, hidx, cMod, hpos.ne', bind, Except.bind]

/-- `put` extends the window by the new frame. -/
theorem put_window
    (hq : q.Wf) (data : T) (hfull : q.isFull = false) :
    RingWindow.window
        (q.mData.set ((q.mHeader + q.mSize) % q.mCapacity) (some data))
        q.mHeader (q.mSize + 1) =
      (q.contents ++ [data]).map some := by
  have hne : q.mSize ≠ q.mCapacity := by simpa [isFull] using hfull
  have hlt : q.mSize < q.mData.length := by
    have := hq.size_le
    have := hq.data_length
    omega
  have hset := RingWindow.window_set_succ q.mHeader (some data) hlt
  rw [hq.data_length, hq.window_eq] at hset
  rw [hset, List.map_append, List.map_singleton]

/-- The head cell of a nonempty buffer, and the window behind it. -/
theorem get_window
    (hq : q.Wf) (hempty : q.isEmpty = false) :
    ∃ x xs,
      q.contents = x :: xs ∧
      q.mData[q.mHeader]? = some (some x) ∧
      RingWindow.window q.mData ((q.mHeader + 1) % q.mCapacity) (q.mSize - 1) =
        xs.map some := by
  have hne : q.mSize ≠ 0 := by simpa [isEmpty] using hempty
  have hlt : q.mSize - 1 < q.mData.length := by
    have := hq.size_le
    have := hq.data_length
    omega
  have hsucc := RingWindow.window_succ q.mHeader hlt
  rw [Nat.sub_add_cancel (by omega), hq.window_eq] at hsucc
  cases hc : q.contents with
  | nil =>
      simp [hc] at hsucc
  | cons x xs =>
      rw [hc, List.map_cons, List.cons.injEq] at hsucc
      have hhead : q.mHeader < q.mData.length := by
        have := Nat.mod_lt q.mHeader (show 0 < q.mCapacity by
          have := hq.size_le
          omega)
        rw [hq.header_mod] at this
        rw [hq.data_length]
        exact this
      refine ⟨x, xs, rfl, ?_, ?_⟩
      · rw [hsucc.1, List.getElem?_eq_getElem hhead]
        simp [hq.data_length, hq.header_mod]
      · rw [← hq.data_length, RingWindow.window_mod]
        exact hsucc.2.symm

/-- What `get` does on a well-formed buffer that is not empty. -/
theorem get_eq
    (hq : q.Wf) (hempty : q.isEmpty = false) {x : T}
    (hx : q.mData[q.mHeader]? = some (some x)) :
    q.get = .ok (some x,
      { q with
        mHeader := (q.mHeader + 1) % q.mCapacity
        mSize := q.mSize - 1 }) := by
  have hne : q.mSize ≠ 0 := by simpa [isEmpty] using hempty
  have hpos : q.mCapacity ≠ 0 := by have := hq.size_le; omega
  simp [get, hempty, load, hx, cMod, hpos, bind, Except.bind]

/-- `put` keeps the invariant and does not fault. -/
theorem put_ok
    (hq : q.Wf) (data : T) :
    ∃ r q', q.put data = .ok (r, q') ∧ q'.Wf ∧
      q'.mCapacity = q.mCapacity ∧
      r = (if q.isFull then -1 else 0) ∧
      q'.contents = (if q.isFull then q.contents else q.contents ++ [data]) := by
  cases hfull : q.isFull with
  | true =>
      exact ⟨-1, q, by simp [put, hfull], hq, rfl, rfl, rfl⟩
  | false =>
      have hne : q.mSize ≠ q.mCapacity := by simpa [isFull] using hfull
      have hsize := hq.size_le
      have hwindow := hq.put_window data hfull
      refine ⟨_, _, hq.put_eq data hfull, ⟨?_, ?_, hq.header_mod, ?_, ?_⟩,
        rfl, rfl, contents_of_window hwindow⟩
      · simpa using hq.data_length
      · show q.mSize + 1 ≤ q.mCapacity
        omega
      · show ((q.mHeader + q.mSize) % q.mCapacity + 1) % q.mCapacity =
          (q.mHeader + (q.mSize + 1)) % q.mCapacity
        rw [Nat.mod_add_mod, Nat.add_assoc]
      · exact ⟨_, hwindow⟩

/-- `get` keeps the invariant and does not fault. -/
theorem get_ok
    (hq : q.Wf) :
    ∃ r q', q.get = .ok (r, q') ∧ q'.Wf ∧
      q'.mCapacity = q.mCapacity ∧
      r = q.contents.head? ∧
      q'.contents = q.contents.tail := by
  cases hempty : q.isEmpty with
  | true =>
      have hzero : q.mSize = 0 := by simpa [isEmpty] using hempty
      have hnil : q.contents = [] := by
        apply List.length_eq_zero_iff.mp
        rw [hq.length_contents, hzero]
      exact ⟨none, q, by simp [get, hempty], hq, rfl, by simp [hnil],
        by simp [hnil]⟩
  | false =>
      obtain ⟨x, xs, hc, hx, hwindow⟩ := hq.get_window hempty
      have hne : q.mSize ≠ 0 := by simpa [isEmpty] using hempty
      have hsize := hq.size_le
      refine ⟨_, _, hq.get_eq hempty hx, ⟨hq.data_length, ?_, ?_, ?_, ?_⟩,
        rfl, by simp [hc], ?_⟩
      · show q.mSize - 1 ≤ q.mCapacity
        omega
      · exact Nat.mod_mod _ _
      · show q.mTail = ((q.mHeader + 1) % q.mCapacity + (q.mSize - 1)) % q.mCapacity
        rw [Nat.mod_add_mod, hq.tail_eq]
        congr 1
        omega
      · exact ⟨xs, hwindow⟩
      · rw [hc, List.tail_cons]
        exact contents_of_window hwindow

/-- `peak` returns what the next `get` would return. -/
theorem peak_ok
    (hq : q.Wf) :
    q.peak = .ok q.contents.head? := by
  cases hempty : q.isEmpty with
  | true =>
      have hzero : q.mSize = 0 := by simpa [isEmpty] using hempty
      have hnil : q.contents = [] := by
        apply List.length_eq_zero_iff.mp
        rw [hq.length_contents, hzero]
      simp [peak, hempty, hnil]
  | false =>
      obtain ⟨x, xs, hc, hx, _⟩ := hq.get_window hempty
      simp [peak, hempty, load, hx, hc, bind, Except.bind]

end Wf

end StreamerFiFo

/-- A ring buffer together with its representation invariant. -/
structure FiFo (T : Type) where
  raw : StreamerFiFo T
  wf : raw.Wf

namespace FiFo

/-- An empty buffer of the given capacity. -/
def init (capacity : ℕ) : FiFo T :=
  ⟨StreamerFiFo.init capacity, StreamerFiFo.init_wf capacity⟩

def contents (q : FiFo T) : List T :=
  q.raw.contents

def capacity (q : FiFo T) : ℕ :=
  q.raw.mCapacity

def size (q : FiFo T) : ℕ :=
  q.raw.size

def isEmpty (q : FiFo T) : Bool :=
  q.raw.isEmpty

def isFull (q : FiFo T) : Bool :=
  q.raw.isFull

theorem put_defined
    (q : FiFo T) (data : T) :
    ∃ r, q.raw.put data = .ok r := by
  obtain ⟨r, q', hok, _⟩ := q.wf.put_ok data
  exact ⟨_, hok⟩

theorem get_defined
    (q : FiFo T) :
    ∃ r, q.raw.get = .ok r := by
  obtain ⟨r, q', hok, _⟩ := q.wf.get_ok
  exact ⟨_, hok⟩

/-- `StreamerFiFo::put` on a well-formed buffer. -/
def put (q : FiFo T) (data : T) : Int × FiFo T :=
  ((valueOf (q.raw.put data) (q.put_defined data)).1,
    ⟨(valueOf (q.raw.put data) (q.put_defined data)).2, by
      obtain ⟨r, q', hok, hwf, _⟩ := q.wf.put_ok data
      have hval := valueOf_spec (q.put_defined data)
      rw [← Except.ok.inj (hok.symm.trans hval)]
      exact hwf⟩)

/-- `StreamerFiFo::get` on a well-formed buffer. -/
def get (q : FiFo T) : Option T × FiFo T :=
  ((valueOf q.raw.get q.get_defined).1,
    ⟨(valueOf q.raw.get q.get_defined).2, by
      obtain ⟨r, q', hok, hwf, _⟩ := q.wf.get_ok
      have hval := valueOf_spec q.get_defined
      rw [← Except.ok.inj (hok.symm.trans hval)]
      exact hwf⟩)

theorem peak_defined
    (q : FiFo T) :
    ∃ r, q.raw.peak = .ok r :=
  ⟨_, q.wf.peak_ok⟩

/-- `StreamerFiFo::peak` on a well-formed buffer. -/
def peak (q : FiFo T) : Option T :=
  valueOf q.raw.peak q.peak_defined

/-- The total `put` is the checked `put` of the source. -/
theorem raw_put
    (q : FiFo T) (data : T) :
    q.raw.put data = .ok ((q.put data).1, (q.put data).2.raw) :=
  valueOf_spec (q.put_defined data)

/-- The total `get` is the checked `get` of the source. -/
theorem raw_get
    (q : FiFo T) :
    q.raw.get = .ok (q.get.1, q.get.2.raw) :=
  valueOf_spec q.get_defined

/-- The total `peak` is the checked `peak` of the source. -/
theorem raw_peak
    (q : FiFo T) :
    q.raw.peak = .ok q.peak :=
  valueOf_spec q.peak_defined

@[simp] theorem contents_init
    (capacity : ℕ) :
    (init capacity : FiFo T).contents = [] := by
  rfl

@[simp] theorem capacity_init
    (capacity : ℕ) :
    (init capacity : FiFo T).capacity = capacity := by
  rfl

theorem size_eq
    (q : FiFo T) :
    q.size = q.contents.length := by
  exact q.wf.length_contents.symm

theorem length_le
    (q : FiFo T) :
    q.contents.length ≤ q.capacity := by
  rw [← size_eq]
  exact q.wf.size_le

theorem isEmpty_iff
    (q : FiFo T) :
    q.isEmpty = true ↔ q.contents = [] := by
  rw [← List.length_eq_zero_iff, ← size_eq]
  exact beq_iff_eq

theorem isFull_iff
    (q : FiFo T) :
    q.isFull = true ↔ q.contents.length = q.capacity := by
  rw [← size_eq]
  exact beq_iff_eq

theorem isFull_eq_false_iff
    (q : FiFo T) :
    q.isFull = false ↔ q.contents.length < q.capacity := by
  rw [← Bool.not_eq_true, isFull_iff]
  have := q.length_le
  omega

theorem put_spec
    (q : FiFo T) (data : T) :
    (q.put data).2.capacity = q.capacity ∧
    (q.put data).1 = (if q.isFull then -1 else 0) ∧
    (q.put data).2.contents =
      (if q.isFull then q.contents else q.contents ++ [data]) := by
  obtain ⟨r, q', hok, _, hcap, hr, hc⟩ := q.wf.put_ok data
  have hraw := q.raw_put data
  rw [hok, Except.ok.injEq, Prod.mk.injEq] at hraw
  obtain ⟨h₁, h₂⟩ := hraw
  simp only [capacity, contents, isFull]
  rw [← h₁, ← h₂]
  exact ⟨hcap, hr, hc⟩

theorem get_spec
    (q : FiFo T) :
    q.get.2.capacity = q.capacity ∧
    q.get.1 = q.contents.head? ∧
    q.get.2.contents = q.contents.tail := by
  obtain ⟨r, q', hok, _, hcap, hr, hc⟩ := q.wf.get_ok
  have hraw := q.raw_get
  rw [hok, Except.ok.injEq, Prod.mk.injEq] at hraw
  obtain ⟨h₁, h₂⟩ := hraw
  simp only [capacity, contents]
  rw [← h₁, ← h₂]
  exact ⟨hcap, hr, hc⟩

@[simp] theorem capacity_put
    (q : FiFo T) (data : T) :
    (q.put data).2.capacity = q.capacity :=
  (q.put_spec data).1

@[simp] theorem capacity_get
    (q : FiFo T) :
    q.get.2.capacity = q.capacity :=
  q.get_spec.1

@[simp] theorem get_fst
    (q : FiFo T) :
    q.get.1 = q.contents.head? :=
  q.get_spec.2.1

@[simp] theorem contents_get
    (q : FiFo T) :
    q.get.2.contents = q.contents.tail :=
  q.get_spec.2.2

@[simp] theorem peak_eq
    (q : FiFo T) :
    q.peak = q.contents.head? := by
  have hraw := q.raw_peak
  rw [q.wf.peak_ok, Except.ok.injEq] at hraw
  exact hraw.symm

/-- `put` into a full buffer fails and stores nothing. -/
theorem put_full
    {q : FiFo T} (data : T) (hfull : q.isFull = true) :
    (q.put data).1 = -1 ∧ (q.put data).2 = q := by
  have hput : q.raw.put data = .ok (-1, q.raw) := by
    simp only [isFull] at hfull
    simp [StreamerFiFo.put, hfull]
  have hraw := q.raw_put data
  rw [hput, Except.ok.injEq, Prod.mk.injEq] at hraw
  refine ⟨hraw.1.symm, ?_⟩
  cases hq' : (q.put data).2 with
  | mk raw wf =>
      rw [hq'] at hraw
      cases q
      simp only [FiFo.mk.injEq]
      exact hraw.2.symm

/-- `put` into a buffer with room stores the frame behind the others. -/
theorem put_room
    {q : FiFo T} (data : T) (hroom : q.isFull = false) :
    (q.put data).1 = 0 ∧ (q.put data).2.contents = q.contents ++ [data] := by
  obtain ⟨_, hr, hc⟩ := q.put_spec data
  simpa [hroom] using And.intro hr hc

end FiFo

end FiFoSection

/-! ## StreamerStack -/

section StackSection

variable {T : Type}

/-- The frame pool: a bounded array used as a stack. -/
structure StreamerStack (T : Type) where
  mPData : List (Option T)
  mCapacity : ℕ
  mSize : ℕ

namespace StreamerStack

/-- The constructor: `new T[capacity]`, nothing stored. -/
def init (capacity : ℕ) : StreamerStack T where
  mPData := List.replicate capacity none
  mCapacity := capacity
  mSize := 0

/-- Store on top; -1 and no change when full. -/
def push (s : StreamerStack T) (data : T) :
    Except Fault (Int × StreamerStack T) :=
  if s.mSize == s.mCapacity then
    .ok (-1, s)
  else do
    let mPData ← store s.mPData s.mSize data
    .ok (0, { s with mPData := mPData, mSize := s.mSize + 1 })

/-- Take the top; `none` is the nullptr returned when empty. -/
def pop (s : StreamerStack T) :
    Except Fault (Option T × StreamerStack T) :=
  if s.mSize == 0 then
    .ok (none, s)
  else do
    let data ← load s.mPData (s.mSize - 1)
    .ok (some data, { s with mSize := s.mSize - 1 })

/-- The stored frames, bottom first. -/
def contents (s : StreamerStack T) : List T :=
  (s.mPData.take s.mSize).reduceOption

/-- Representation invariant of the pool. -/
structure Wf (s : StreamerStack T) : Prop where
  data_length : s.mPData.length = s.mCapacity
  size_le : s.mSize ≤ s.mCapacity
  filled : ∃ xs : List T, s.mPData.take s.mSize = xs.map some

theorem init_wf
    (capacity : ℕ) :
    (init capacity : StreamerStack T).Wf where
  data_length := by simp [init]
  size_le := by simp [init]
  filled := ⟨[], by simp [init]⟩

theorem contents_of_take
    {s : StreamerStack T} {xs : List T}
    (h : s.mPData.take s.mSize = xs.map some) :
    s.contents = xs := by
  simp only [contents]
  rw [h, StreamerFiFo.reduceOption_map_some]

namespace Wf

variable {s : StreamerStack T}

/-- `push` keeps the invariant and does not fault. -/
theorem push_ok
    (hs : s.Wf) (data : T) :
    ∃ r s', s.push data = .ok (r, s') ∧ s'.Wf ∧
      ((r = -1 ∧ s' = s) ∨ (r = 0 ∧ s'.contents = s.contents ++ [data])) := by
  have hlen := hs.data_length
  have hsize := hs.size_le
  by_cases hfull : s.mSize = s.mCapacity
  · exact ⟨-1, s, by simp [push, hfull], hs, Or.inl ⟨rfl, rfl⟩⟩
  · obtain ⟨xs, hxs⟩ := hs.filled
    have hlt : s.mSize < s.mPData.length := by omega
    have htake : (s.mPData.set s.mSize (some data)).take (s.mSize + 1) =
        (xs ++ [data]).map some := by
      rw [List.take_add_one, List.take_set_of_le (le_refl _), hxs]
      simp [hlt]
    refine ⟨0, { s with
        mPData := s.mPData.set s.mSize (some data)
        mSize := s.mSize + 1 }, ?_, ⟨?_, ?_, ⟨_, htake⟩⟩, Or.inr ⟨rfl, ?_⟩⟩
    · simp [push, hfull, store, hlt, bind, Except.bind]
    · simpa using hlen
    · show s.mSize + 1 ≤ s.mCapacity
      omega
    · rw [contents_of_take hxs]
      exact contents_of_take htake

/-- `pop` keeps the invariant and does not fault. -/
theorem pop_ok
    (hs : s.Wf) :
    ∃ r s', s.pop = .ok (r, s') ∧ s'.Wf ∧
      ((r = none ∧ s' = s) ∨
        ∃ x, r = some x ∧ s.contents = s'.contents ++ [x]) := by
  have hlen := hs.data_length
  have hsize := hs.size_le
  by_cases hempty : s.mSize = 0
  · exact ⟨none, s, by simp [pop, hempty], hs, Or.inl ⟨rfl, rfl⟩⟩
  · obtain ⟨xs, hxs⟩ := hs.filled
    obtain ⟨n, hn⟩ : ∃ n, s.mSize = n + 1 := ⟨s.mSize - 1, by omega⟩
    have hlt : n < s.mPData.length := by omega
    rw [hn, List.take_add_one, List.getElem?_eq_getElem hlt] at hxs
    rcases List.eq_nil_or_concat xs with rfl | ⟨ys, x, rfl⟩
    · simp at hxs
      simp [hxs] at hlt
    · rw [List.concat_eq_append, List.map_append, Option.toList_some,
        List.map_singleton] at hxs
      obtain ⟨hinit, hlast⟩ := List.append_inj' hxs rfl
      have hx : s.mPData[n]? = some (some x) := by
        rw [List.getElem?_eq_getElem hlt]
        simpa using hlast
      have htake : s.mPData.take s.mSize = (ys ++ [x]).map some := by
        rw [hn, List.take_add_one, hinit, hx]
        simp
      refine ⟨some x, { s with mSize := n }, ?_, ⟨hlen, ?_, ⟨ys, hinit⟩⟩,
        Or.inr ⟨x, rfl, ?_⟩⟩
      · simp [pop, hn, load, hx, bind, Except.bind]
      · show n ≤ s.mCapacity
        omega
      · rw [contents_of_take htake]
        congr 1
        exact (contents_of_take hinit).symm

end Wf

end StreamerStack

/-- A pool together with its representation invariant. -/
structure Stack (T : Type) where
  raw : StreamerStack T
  wf : raw.Wf

namespace Stack

/-- An empty pool of the given capacity. -/
def init (capacity : ℕ) : Stack T :=
  ⟨StreamerStack.init capacity, StreamerStack.init_wf capacity⟩

def contents (s : Stack T) : List T :=
  s.raw.contents

theorem push_defined
    (s : Stack T) (data : T) :
    ∃ r, s.raw.push data = .ok r := by
  obtain ⟨r, s', hok, _⟩ := s.wf.push_ok data
  exact ⟨_, hok⟩

theorem pop_defined
    (s : Stack T) :
    ∃ r, s.raw.pop = .ok r := by
  obtain ⟨r, s', hok, _⟩ := s.wf.pop_ok
  exact ⟨_, hok⟩

/-- `StreamerStack::push` on a well-formed pool. -/
def push (s : Stack T) (data : T) : Int × Stack T :=
  ((valueOf (s.raw.push data) (s.push_defined data)).1,
    ⟨(valueOf (s.raw.push data) (s.push_defined data)).2, by
      obtain ⟨r, s', hok, hwf, _⟩ := s.wf.push_ok data
      have hval := valueOf_spec (s.push_defined data)
      rw [← Except.ok.inj (hok.symm.trans hval)]
      exact hwf⟩)

/-- `StreamerStack::pop` on a well-formed pool. -/
def pop (s : Stack T) : Option T × Stack T :=
  ((valueOf s.raw.pop s.pop_defined).1,
    ⟨(valueOf s.raw.pop s.pop_defined).2, by
      obtain ⟨r, s', hok, hwf, _⟩ := s.wf.pop_ok
      have hval := valueOf_spec s.pop_defined
      rw [← Except.ok.inj (hok.symm.trans hval)]
      exact hwf⟩)

@[simp] theorem contents_init
    (capacity : ℕ) :
    (init capacity : Stack T).contents = [] := by
  simp [init, contents, StreamerStack.contents, StreamerStack.init]

/-- The total `push` is the checked `push` of the source. -/
theorem raw_push
    (s : Stack T) (data : T) :
    s.raw.push data = .ok ((s.push data).1, (s.push data).2.raw) :=
  valueOf_spec (s.push_defined data)

/-- The total `pop` is the checked `pop` of the source. -/
theorem raw_pop
    (s : Stack T) :
    s.raw.pop = .ok (s.pop.1, s.pop.2.raw) :=
  valueOf_spec s.pop_defined

/-- A pushed frame is on top, or the pool is full and unchanged. -/
theorem push_spec
    (s : Stack T) (data : T) :
    ((s.push data).1 = -1 ∧ (s.push data).2.contents = s.contents) ∨
      ((s.push data).1 = 0 ∧
        (s.push data).2.contents = s.contents ++ [data]) := by
  obtain ⟨r, s', hok, _, hcase⟩ := s.wf.push_ok data
  have hraw := s.raw_push data
  rw [hok, Except.ok.injEq, Prod.mk.injEq] at hraw
  obtain ⟨h₁, h₂⟩ := hraw
  simp only [contents]
  rw [← h₁, ← h₂]
  rcases hcase with ⟨hr, rfl⟩ | hcase
  · exact Or.inl ⟨hr, rfl⟩
  · exact Or.inr hcase

/-- A popped frame was on top, or the pool is empty and unchanged. -/
theorem pop_spec
    (s : Stack T) :
    (s.pop.1 = none ∧ s.pop.2.contents = s.contents) ∨
      ∃ x, s.pop.1 = some x ∧ s.contents = s.pop.2.contents ++ [x] := by
  obtain ⟨r, s', hok, _, hcase⟩ := s.wf.pop_ok
  have hraw := s.raw_pop
  rw [hok, Except.ok.injEq, Prod.mk.injEq] at hraw
  obtain ⟨h₁, h₂⟩ := hraw
  simp only [contents]
  rw [← h₁, ← h₂]
  rcases hcase with ⟨hr, rfl⟩ | hcase
  · exact Or.inl ⟨hr, rfl⟩
  · exact Or.inr hcase

end Stack

end StackSection

end KoalaStreamer
