import Mathlib.Data.List.Basic

/-!
# Lists with a bound on their length

What a queue of a fixed capacity is for, whatever it is stored in: a list that takes no
more elements than its capacity.  The bound is part of the value.

The operations commute with `map`, so that a queue of names stands for the queue of what
they name.
-/

universe u v

@[ext] structure BoundedList (T : Type u) where
  capacity : ℕ
  items : List T
  bounded : items.length ≤ capacity

namespace BoundedList

variable {T : Type u} {T' : Type v}

/-- No element, and room for `capacity` ones. -/
def empty (capacity : ℕ) : BoundedList T where
  capacity := capacity
  items := []
  bounded := Nat.zero_le _

def isFull (q : BoundedList T) : Bool :=
  q.items.length = q.capacity

/-- Append an element, unless the list is full. -/
def put (q : BoundedList T) (x : T) : BoundedList T where
  capacity := q.capacity
  items := if q.isFull then q.items else q.items ++ [x]
  bounded := by
    have hbounded := q.bounded
    split
    · exact hbounded
    · rename_i hroom
      rw [isFull, decide_eq_true_eq] at hroom
      rw [List.length_append, List.length_singleton]
      omega

/-- The list without its head. -/
def rest (q : BoundedList T) : BoundedList T where
  capacity := q.capacity
  items := q.items.tail
  bounded := by
    have hbounded := q.bounded
    rw [List.length_tail]
    omega

def map (f : T → T') (q : BoundedList T) : BoundedList T' where
  capacity := q.capacity
  items := q.items.map f
  bounded := by
    rw [List.length_map]
    exact q.bounded

variable (f : T → T') (q : BoundedList T)

@[simp] theorem items_map :
    (q.map f).items = q.items.map f := by
  rfl

@[simp] theorem isFull_map :
    (q.map f).isFull = q.isFull := by
  simp [isFull, map]

theorem items_put
    (x : T) : (q.put x).items = if q.isFull then q.items else q.items ++ [x] := by
  rfl

theorem map_put
    (x : T) : (q.put x).map f = (q.map f).put (f x) := by
  refine BoundedList.ext rfl ?_
  rw [items_map, items_put, items_put, isFull_map, items_map]
  split
  · rfl
  · exact List.map_append

theorem map_rest :
    q.rest.map f = (q.map f).rest :=
  BoundedList.ext rfl List.map_tail

theorem map_congr
    {f g : T → T'} {q : BoundedList T} (h : ∀ x ∈ q.items, f x = g x) :
    q.map f = q.map g :=
  BoundedList.ext rfl (List.map_congr_left h)

end BoundedList
