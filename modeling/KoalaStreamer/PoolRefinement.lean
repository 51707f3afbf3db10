import KoalaStreamer.Library.DataRefinement
import KoalaStreamer.StreamerStack

/-!
# StreamerStack refines a bounded stack

The specification is a list, top first, with a bound on its length.  `stackStep` performs an
operation of the source on the array, with its accesses checked.  The pool of the program
lives from `main` to `main`: what the threads have put there is freed at the end by popping
until NULL comes.

Main result: `streamerStack_refines_boundedStack`: for every capacity and every sequence of
operations the array gives the answers of the list and stays inside its bounds, and the
loop at the end of `main` gives back what is left, each once, and stops.
-/

namespace KoalaStreamer

open DataRefinement

/-- A call of a member of `StreamerStack`. -/
inductive StackOp (T : Type)
  | push (data : T)
  | pop
  | size
deriving DecidableEq, Repr

/-- What a call returns. -/
inductive StackAnswer (T : Type)
  /-- The `int` of `push`. -/
  | status (ret : Int)
  /-- The element of `pop`; `none` is NULL. -/
  | element (data : Option T)
  | size (n : ℕ)
deriving DecidableEq, Repr

section Refinement

variable {T : Type}

/-- A call on the array. -/
def stackStep : Object (StreamerStack T) (StackOp T) (StackAnswer T) Fault
  | s, .push data =>
      match s.push data with
      | .error e => .error e
      | .ok (ret, s') => .ok (.status ret, s')
  | s, .pop =>
      match s.pop with
      | .error e => .error e
      | .ok (data, s') => .ok (.element data, s')
  | s, .size => .ok (.size s.mSize, s)

/-- The same call on a list, top first, bounded by the capacity. -/
def boundedStack (capacity : ℕ) : Spec (List T) (StackOp T) (StackAnswer T)
  | xs, .push data =>
      if xs.length = capacity then (.status (-1), xs)
      else (.status 0, data :: xs)
  | xs, .pop => (.element xs.head?, xs.tail)
  | xs, .size => (.size xs.length, xs)

/-- The indices at which a call accesses `mPData`. -/
def StreamerStack.indicesUsed (s : StreamerStack T) : StackOp T → List ℕ
  | .push _ => if s.mSize = s.mCapacity then [] else [s.mSize]
  | .pop => if s.mSize = 0 then [] else [s.mSize - 1]
  | .size => []

/-- The array stands for the list. -/
structure StacksAs (capacity : ℕ) (s : StreamerStack T) (xs : List T) : Prop where
  wf : s.Wf
  capacity_eq : s.mCapacity = capacity
  contents_eq : s.contents = xs.reverse

theorem stacksAs_init
    (capacity : ℕ) :
    StacksAs capacity (StreamerStack.init capacity) ([] : List T) where
  wf := StreamerStack.init_wf capacity
  capacity_eq := rfl
  contents_eq := (Stack.contents_init (T := T) capacity : _)

theorem StreamerStack.Wf.length_contents
    {s : StreamerStack T} (h : s.Wf) : s.contents.length = s.mSize := by
  obtain ⟨xs, hxs⟩ := h.filled
  have hlength := congrArg List.length hxs
  rw [List.length_map, List.length_take, h.data_length, min_eq_left h.size_le] at hlength
  rw [StreamerStack.contents_of_take hxs, hlength]

namespace StacksAs

variable {capacity : ℕ} {s : StreamerStack T} {xs : List T}

theorem size_eq
    (h : StacksAs capacity s xs) : s.mSize = xs.length := by
  rw [← h.wf.length_contents, h.contents_eq, List.length_reverse]

/-- An access happens at a cell of the array. -/
theorem index_lt
    (h : StacksAs capacity s xs) (op : StackOp T) :
    ∀ i ∈ s.indicesUsed op, i < capacity := by
  have hsize := h.wf.size_le
  have hcapacity := h.capacity_eq
  intro i hi
  cases op with
  | push data =>
      simp only [StreamerStack.indicesUsed] at hi
      split at hi
      · cases hi
      · rw [List.mem_singleton.mp hi]
        omega
  | pop =>
      simp only [StreamerStack.indicesUsed] at hi
      split at hi
      · cases hi
      · rw [List.mem_singleton.mp hi]
        omega
  | size =>
      cases hi

end StacksAs

theorem StreamerStack.push_capacity
    {s s' : StreamerStack T} {data : T} {r : Int}
    (h : s.push data = .ok (r, s')) : s'.mCapacity = s.mCapacity := by
  simp only [StreamerStack.push] at h
  split at h
  · obtain ⟨-, rfl⟩ := Prod.mk.inj (Except.ok.inj h)
    rfl
  · cases hstore : store s.mPData s.mSize data with
    | error e =>
        rw [hstore] at h
        cases h
    | ok mPData =>
        rw [hstore] at h
        obtain ⟨-, rfl⟩ := Prod.mk.inj (Except.ok.inj h)
        rfl

theorem StreamerStack.pop_capacity
    {s s' : StreamerStack T} {r : Option T}
    (h : s.pop = .ok (r, s')) : s'.mCapacity = s.mCapacity := by
  simp only [StreamerStack.pop] at h
  split at h
  · obtain ⟨-, rfl⟩ := Prod.mk.inj (Except.ok.inj h)
    rfl
  · cases hload : load s.mPData (s.mSize - 1) with
    | error e =>
        rw [hload] at h
        cases h
    | ok data =>
        rw [hload] at h
        obtain ⟨-, rfl⟩ := Prod.mk.inj (Except.ok.inj h)
        rfl

/-- `push` refuses when the array is full, and then only. -/
theorem StreamerStack.push_ret
    {s s' : StreamerStack T} {data : T} {r : Int}
    (h : s.push data = .ok (r, s')) : r = if s.mSize = s.mCapacity then -1 else 0 := by
  simp only [StreamerStack.push] at h
  split at h
  · rename_i hfull
    rw [if_pos (beq_iff_eq.mp hfull)]
    exact (Prod.mk.inj (Except.ok.inj h)).1.symm
  · rename_i hroom
    rw [if_neg (fun heq => hroom (beq_iff_eq.mpr heq))]
    cases hstore : store s.mPData s.mSize data with
    | error e =>
        rw [hstore] at h
        cases h
    | ok mPData =>
        rw [hstore] at h
        exact (Prod.mk.inj (Except.ok.inj h)).1.symm

/-- `pop` answers NULL when nothing is stored, and then only. -/
theorem StreamerStack.pop_none_iff
    {s s' : StreamerStack T} {r : Option T}
    (h : s.pop = .ok (r, s')) : r = none ↔ s.mSize = 0 := by
  simp only [StreamerStack.pop] at h
  split at h
  · rename_i hempty
    exact ⟨fun _ => beq_iff_eq.mp hempty, fun _ => (Prod.mk.inj (Except.ok.inj h)).1.symm⟩
  · rename_i hsome
    cases hload : load s.mPData (s.mSize - 1) with
    | error e =>
        rw [hload] at h
        cases h
    | ok data =>
        rw [hload] at h
        obtain ⟨rfl, -⟩ := Prod.mk.inj (Except.ok.inj h)
        exact ⟨fun hnone => (Option.some_ne_none data hnone).elim,
          fun hzero => absurd (beq_iff_eq.mpr hzero) hsome⟩

/-- One call: the array does what the list does. -/
theorem stackStep_refines
    (capacity : ℕ) :
    Refines (StacksAs capacity) (stackStep (T := T)) (boundedStack capacity) := by
  intro s xs op h
  have hcapacity := h.capacity_eq
  cases op with
  | push data =>
      obtain ⟨r, s', hpush, hwf, hcase⟩ := h.wf.push_ok data
      have hret := StreamerStack.push_ret hpush
      have hcap := (StreamerStack.push_capacity hpush).trans hcapacity
      rw [h.size_eq, hcapacity] at hret
      simp only [stackStep, hpush, boundedStack]
      split at hret
      · rename_i hfull
        rw [if_pos hfull, hret]
        refine ⟨s', rfl, hwf, hcap, ?_⟩
        rcases hcase with ⟨-, rfl⟩ | ⟨hzero, -⟩
        · exact h.contents_eq
        · rw [hzero] at hret
          cases hret
      · rename_i hroom
        rw [if_neg hroom, hret]
        refine ⟨s', rfl, hwf, hcap, ?_⟩
        rcases hcase with ⟨hneg, -⟩ | ⟨-, hcontents⟩
        · rw [hneg] at hret
          cases hret
        · rw [hcontents, h.contents_eq, List.reverse_cons]
  | pop =>
      obtain ⟨r, s', hpop, hwf, hcase⟩ := h.wf.pop_ok
      have hcap := (StreamerStack.pop_capacity hpop).trans hcapacity
      simp only [stackStep, hpop, boundedStack]
      refine ⟨s', ?_, hwf, hcap, ?_⟩
      · rcases hcase with ⟨rfl, -⟩ | ⟨x, rfl, hcontents⟩
        · have hzero := (StreamerStack.pop_none_iff hpop).mp rfl
          rw [h.size_eq, List.length_eq_zero_iff] at hzero
          rw [hzero]
          rfl
        · rw [h.contents_eq, List.reverse_eq_append_iff] at hcontents
          rw [hcontents]
          rfl
      · rcases hcase with ⟨rfl, rfl⟩ | ⟨x, rfl, hcontents⟩
        · have hzero := (StreamerStack.pop_none_iff hpop).mp rfl
          rw [h.size_eq, List.length_eq_zero_iff] at hzero
          rw [h.contents_eq, hzero]
          rfl
        · rw [h.contents_eq, List.reverse_eq_append_iff] at hcontents
          rw [hcontents]
          simp
  | size =>
      refine ⟨s, ?_, h⟩
      simp only [stackStep, boundedStack, h.size_eq]

/-- The loop at the end of `main`: pop and free until NULL comes.  The frames freed, in
order, and the pool after it. -/
def drainPool : ℕ → StreamerStack T → Except Fault (List T × StreamerStack T)
  | 0, s => .ok ([], s)
  | n + 1, s =>
      match s.pop with
      | .error e => .error e
      | .ok (none, s') => .ok ([], s')
      | .ok (some pFrame, s') =>
          match drainPool n s' with
          | .error e => .error e
          | .ok (freed, s'') => .ok (pFrame :: freed, s'')

/-- A pass of the loop takes the top; the pass that finds none ends it. -/
theorem drainPool_spec
    {capacity : ℕ} (n : ℕ) {s : StreamerStack T} {xs : List T}
    (h : StacksAs capacity s xs) (hn : xs.length < n) :
    ∃ s', drainPool n s = .ok (xs, s') ∧ StacksAs capacity s' [] := by
  induction n generalizing s xs with
  | zero =>
      exact absurd hn (Nat.not_lt_zero _)
  | succ n ih =>
      obtain ⟨s', hstep, hs'⟩ := stackStep_refines capacity s xs .pop h
      simp only [stackStep, boundedStack] at hstep hs'
      cases hpop : s.pop with
      | error e =>
          rw [hpop] at hstep
          cases hstep
      | ok answer =>
          obtain ⟨r, t⟩ := answer
          rw [hpop] at hstep
          obtain ⟨hr, rfl⟩ := Prod.mk.inj (Except.ok.inj hstep)
          simp only [StackAnswer.element.injEq] at hr
          cases xs with
          | nil =>
              obtain rfl : r = none := hr
              exact ⟨t, by simp only [drainPool, hpop], hs'⟩
          | cons x xs =>
              obtain rfl : r = some x := hr
              obtain ⟨u, hdrain, hu⟩ := ih hs' (by simpa using hn)
              exact ⟨u, by simp only [drainPool, hpop, hdrain, List.tail_cons], hu⟩

/--
Every sequence of calls on a new pool gives the answers of the bounded list.  Whatever calls
were made before, a call accesses the array only at indices below the capacity; and from
then on the loop at the end of `main` frees exactly what the list holds, top first, and
leaves an empty pool.
-/
theorem streamerStack_refines_boundedStack
    (capacity : ℕ) (ops : List (StackOp T)) :
    ∃ s, runAll stackStep (StreamerStack.init capacity) ops =
        .ok ((specAll (boundedStack capacity) [] ops).1, s) ∧
      (∀ op, ∀ i ∈ s.indicesUsed op, i < capacity) ∧
      (specAll (boundedStack capacity) [] ops).2.length ≤ capacity ∧
      ∀ n, (specAll (boundedStack capacity) [] ops).2.length < n →
        ∃ s', drainPool n s = .ok ((specAll (boundedStack capacity) [] ops).2, s') ∧
          s'.mSize = 0 := by
  obtain ⟨s, hrun, hs⟩ := (stackStep_refines (T := T) capacity).runAll ops
    (stacksAs_init capacity)
  refine ⟨s, hrun, hs.index_lt, ?_, fun n hn => ?_⟩
  · rw [← hs.size_eq, ← hs.capacity_eq]
    exact hs.wf.size_le
  · obtain ⟨s', hdrain, hs'⟩ := drainPool_spec n hs hn
    exact ⟨s', hdrain, hs'.size_eq⟩

/-- A frame that finds the pool full is not taken. -/
example :
    (runAll stackStep (StreamerStack.init 1) [.push 'a', .push 'b', .pop, .pop]).toOption.map
      (·.1) = some [.status 0, .status (-1), .element (some 'a'), .element none] := by
  decide

end Refinement

/-! ## The pool of the pipeline -/

namespace Stack

variable {T : Type}

def capacity (s : Stack T) : ℕ :=
  s.raw.mCapacity

@[simp] theorem capacity_push
    (s : Stack T) (data : T) : (s.push data).2.capacity = s.capacity :=
  StreamerStack.push_capacity (s.raw_push data)

@[simp] theorem capacity_pop
    (s : Stack T) : s.pop.2.capacity = s.capacity :=
  StreamerStack.pop_capacity s.raw_pop

theorem pop_eq_none_iff
    (s : Stack T) : s.pop.1 = none ↔ s.contents = [] := by
  rw [StreamerStack.pop_none_iff s.raw_pop, ← s.wf.length_contents,
    List.length_eq_zero_iff]
  rfl

theorem push_neg_iff
    (s : Stack T) (data : T) : (s.push data).1 < 0 ↔ s.contents.length = s.capacity := by
  have hlength : s.contents.length = s.raw.mSize := s.wf.length_contents
  rw [StreamerStack.push_ret (s.raw_push data), hlength, capacity]
  split <;> simp_all

end Stack

end KoalaStreamer
