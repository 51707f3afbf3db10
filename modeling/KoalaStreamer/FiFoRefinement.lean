import KoalaStreamer.Library.DataRefinement
import KoalaStreamer.StreamerStack

/-!
# StreamerFiFo refines a bounded queue

The specification is a list with a bound on its length.  `fifoStep` performs an
operation of the source on the ring buffer, with its array accesses and its
modulus checked.

Main result: `streamerFiFo_refines_boundedQueue`: for every capacity, 0
included, and every sequence of operations the ring buffer gives the answers of
the list, stays inside its array and divides by a capacity that is not 0.
-/

namespace KoalaStreamer

open DataRefinement

/-- A call of a member of `StreamerFiFo`. -/
inductive FiFoOp (T : Type)
  | put (data : T)
  | get
  | peak
deriving DecidableEq, Repr

/-- What a call returns. -/
inductive FiFoAnswer (T : Type)
  /-- The `int` of `put`. -/
  | status (ret : Int)
  /-- The element of `get` and `peak`; `none` is NULL. -/
  | element (data : Option T)
deriving DecidableEq, Repr

section Refinement

variable {T : Type}

/-- A call on the ring buffer. -/
def fifoStep : Object (StreamerFiFo T) (FiFoOp T) (FiFoAnswer T) Fault
  | q, .put data =>
      match q.put data with
      | .error e => .error e
      | .ok (ret, q') => .ok (.status ret, q')
  | q, .get =>
      match q.get with
      | .error e => .error e
      | .ok (data, q') => .ok (.element data, q')
  | q, .peak =>
      match q.peak with
      | .error e => .error e
      | .ok data => .ok (.element data, q)

/-- The same call on a list bounded by the capacity. -/
def boundedQueue (capacity : ℕ) : Spec (List T) (FiFoOp T) (FiFoAnswer T)
  | xs, .put data =>
      if xs.length = capacity then (.status (-1), xs)
      else (.status 0, xs ++ [data])
  | xs, .get => (.element xs.head?, xs.tail)
  | xs, .peak => (.element xs.head?, xs)

/-- The indices at which a call accesses `mData`. -/
def StreamerFiFo.indicesUsed (q : StreamerFiFo T) : FiFoOp T → List ℕ
  | .put _ => if q.isFull then [] else [q.mTail]
  | .get => if q.isEmpty then [] else [q.mHeader]
  | .peak => if q.isEmpty then [] else [q.mHeader]

/-- The numbers by which a call takes a remainder. -/
def StreamerFiFo.moduliUsed (q : StreamerFiFo T) : FiFoOp T → List ℕ
  | .put _ => if q.isFull then [] else [q.mCapacity]
  | .get => if q.isEmpty then [] else [q.mCapacity]
  | .peak => []

/-- The ring buffer stands for the list. -/
structure StandsFor (capacity : ℕ) (q : StreamerFiFo T) (xs : List T) : Prop where
  wf : q.Wf
  capacity_eq : q.mCapacity = capacity
  contents_eq : q.contents = xs

theorem standsFor_init
    (capacity : ℕ) :
    StandsFor capacity (StreamerFiFo.init capacity) ([] : List T) where
  wf := StreamerFiFo.init_wf capacity
  capacity_eq := rfl
  contents_eq := rfl

namespace StandsFor

variable {capacity : ℕ} {q : StreamerFiFo T} {xs : List T}

theorem isFull_iff
    (h : StandsFor capacity q xs) :
    q.isFull = true ↔ xs.length = capacity := by
  have hlen := h.wf.length_contents
  rw [h.contents_eq] at hlen
  rw [hlen, ← h.capacity_eq]
  exact beq_iff_eq

/-- An access happens only in a buffer with cells, and at one of them. -/
theorem index_lt
    (h : StandsFor capacity q xs) (op : FiFoOp T) :
    ∀ i ∈ q.indicesUsed op, i < capacity := by
  have hsize := h.wf.size_le
  have hheader : q.isEmpty = false → q.mHeader < capacity := by
    intro hempty
    have hne : q.mSize ≠ 0 := by simpa [StreamerFiFo.isEmpty] using hempty
    rw [← h.capacity_eq, ← h.wf.header_mod]
    exact Nat.mod_lt _ (by omega)
  intro i hi
  cases op with
  | put data =>
      cases hfull : q.isFull with
      | true =>
          simp [StreamerFiFo.indicesUsed, hfull] at hi
      | false =>
          have hne : q.mSize ≠ q.mCapacity := by
            simpa [StreamerFiFo.isFull] using hfull
          simp only [StreamerFiFo.indicesUsed, hfull, Bool.false_eq_true,
            if_false, List.mem_singleton] at hi
          rw [hi, h.wf.tail_eq, h.capacity_eq]
          exact Nat.mod_lt _ (by have := h.capacity_eq; omega)
  | get =>
      cases hempty : q.isEmpty with
      | true =>
          simp [StreamerFiFo.indicesUsed, hempty] at hi
      | false =>
          simp only [StreamerFiFo.indicesUsed, hempty, Bool.false_eq_true,
            if_false, List.mem_singleton] at hi
          rw [hi]
          exact hheader hempty
  | peak =>
      cases hempty : q.isEmpty with
      | true =>
          simp [StreamerFiFo.indicesUsed, hempty] at hi
      | false =>
          simp only [StreamerFiFo.indicesUsed, hempty, Bool.false_eq_true,
            if_false, List.mem_singleton] at hi
          rw [hi]
          exact hheader hempty

/-- A remainder is taken only by a capacity that is not 0. -/
theorem modulus_ne_zero
    (h : StandsFor capacity q xs) (op : FiFoOp T) :
    ∀ n ∈ q.moduliUsed op, n ≠ 0 := by
  have hsize := h.wf.size_le
  intro n hn
  cases op with
  | put data =>
      cases hfull : q.isFull with
      | true =>
          simp [StreamerFiFo.moduliUsed, hfull] at hn
      | false =>
          have hne : q.mSize ≠ q.mCapacity := by
            simpa [StreamerFiFo.isFull] using hfull
          simp only [StreamerFiFo.moduliUsed, hfull, Bool.false_eq_true,
            if_false, List.mem_singleton] at hn
          omega
  | get =>
      cases hempty : q.isEmpty with
      | true =>
          simp [StreamerFiFo.moduliUsed, hempty] at hn
      | false =>
          have hne : q.mSize ≠ 0 := by simpa [StreamerFiFo.isEmpty] using hempty
          simp only [StreamerFiFo.moduliUsed, hempty, Bool.false_eq_true,
            if_false, List.mem_singleton] at hn
          omega
  | peak =>
      simp [StreamerFiFo.moduliUsed] at hn

end StandsFor

/-- One call: the ring buffer does what the list does. -/
theorem fifoStep_refines
    (capacity : ℕ) :
    Refines (StandsFor capacity) (fifoStep (T := T)) (boundedQueue capacity) := by
  intro q xs op h
  cases op with
  | put data =>
      obtain ⟨r, q', hput, hwf, hcap, hr, hcontents⟩ := h.wf.put_ok data
      refine ⟨q', ?_, hwf, hcap.trans h.capacity_eq, ?_⟩
      · by_cases hlen : xs.length = capacity
        · have hfull := h.isFull_iff.mpr hlen
          simp [fifoStep, hput, boundedQueue, hlen, hr, hfull]
        · have hroom : ¬ q.isFull = true := fun hf => hlen (h.isFull_iff.mp hf)
          simp [fifoStep, hput, boundedQueue, hlen, hr, hroom]
      · rw [hcontents, h.contents_eq]
        by_cases hlen : xs.length = capacity
        · simp [boundedQueue, hlen, h.isFull_iff.mpr hlen]
        · have hroom : ¬ q.isFull = true := fun hf => hlen (h.isFull_iff.mp hf)
          simp [boundedQueue, hlen, hroom]
  | get =>
      obtain ⟨r, q', hget, hwf, hcap, hr, hcontents⟩ := h.wf.get_ok
      refine ⟨q', ?_, hwf, hcap.trans h.capacity_eq, ?_⟩
      · simp [fifoStep, hget, boundedQueue, hr, h.contents_eq]
      · rw [hcontents, h.contents_eq]
        rfl
  | peak =>
      refine ⟨q, ?_, h⟩
      simp [fifoStep, h.wf.peak_ok, boundedQueue, h.contents_eq]

/--
Every sequence of calls on a new ring buffer gives the answers of the bounded
list and leaves its content.  Whatever calls were made before, a call accesses
the array only at indices below the capacity and takes no remainder by 0.
-/
theorem streamerFiFo_refines_boundedQueue
    (capacity : ℕ) (ops : List (FiFoOp T)) :
    (∃ q, runAll fifoStep (StreamerFiFo.init capacity) ops =
        .ok ((specAll (boundedQueue capacity) [] ops).1, q) ∧
      q.contents = (specAll (boundedQueue capacity) [] ops).2) ∧
    ∀ before op after, ops = before ++ op :: after →
      ∃ rs q, runAll fifoStep (StreamerFiFo.init capacity) before = .ok (rs, q) ∧
        (∀ i ∈ q.indicesUsed op, i < capacity) ∧
        (∀ n ∈ q.moduliUsed op, n ≠ 0) := by
  have hrefines := fifoStep_refines (T := T) capacity
  constructor
  · obtain ⟨q, hrun, hq⟩ := hrefines.runAll ops (standsFor_init capacity)
    exact ⟨q, hrun, hq.contents_eq⟩
  · intro before op after _
    obtain ⟨q, hrun, hq⟩ := hrefines.runAll before (standsFor_init capacity)
    exact ⟨_, q, hrun, hq.index_lt op, hq.modulus_ne_zero op⟩

/-- A buffer of capacity 0 refuses every element and has none to give. -/
example :
    (runAll fifoStep (StreamerFiFo.init 0) [.put 'a', .get, .peak]).toOption.map
      (·.1) = some [.status (-1), .element none, .element none] := by
  decide

end Refinement

end KoalaStreamer
