import Mathlib.Data.List.Rotate
import Mathlib.Data.Nat.ModEq

/-!
# Windows of a circular list

`window d h n` lists `n` cells of `d` starting at index `h` and wrapping at the
end of `d`.  The two facts a ring buffer needs are that writing the cell just
behind a window extends it on the right, and that advancing the start drops
its first cell.
-/

namespace RingWindow

universe u

variable {α : Type u}

/-- The `n` cells of the circular list `d` from index `h` on. -/
def window (d : List α) (h n : ℕ) : List α :=
  (d.rotate h).take n

@[simp] theorem window_zero
    (d : List α) (h : ℕ) :
    window d h 0 = [] := by
  simp [window]

theorem length_window
    {d : List α} {n : ℕ}
    (h : ℕ) (hn : n ≤ d.length) :
    (window d h n).length = n := by
  simp [window, hn]

/-- The start of a window only matters modulo the length of the list. -/
theorem window_mod
    (d : List α) (h n : ℕ) :
    window d (h % d.length) n = window d h n := by
  simp [window, List.rotate_mod]

theorem getElem?_window
    {d : List α} {h n i : ℕ}
    (hi : i < n) (hn : n ≤ d.length) :
    (window d h n)[i]? = d[(i + h) % d.length]? := by
  have hlen : i < d.length := lt_of_lt_of_le hi hn
  simp only [window]
  rw [List.getElem?_take_of_lt hi, List.getElem?_rotate hlen]

/-- Distinct offsets below the length reach distinct cells. -/
theorem offset_ne
    {len h i n : ℕ}
    (hi : i < n) (hn : n < len) :
    (h + n) % len ≠ (i + h) % len := by
  intro heq
  have hcong : Nat.ModEq len (i + h) (n + h) := by
    rw [Nat.ModEq, Nat.add_comm n h]
    exact heq.symm
  have hin : Nat.ModEq len i n := Nat.ModEq.add_right_cancel' h hcong
  have : i = n := Nat.ModEq.eq_of_lt_of_lt hin (by omega) hn
  omega

/-- Writing the first cell behind a window appends to the window. -/
theorem window_set_succ
    {d : List α} {n : ℕ}
    (h : ℕ) (x : α) (hn : n < d.length) :
    window (d.set ((h + n) % d.length) x) h (n + 1) =
      window d h n ++ [x] := by
  have hpos : 0 < d.length := by omega
  apply List.ext_getElem?
  intro i
  rcases Nat.lt_trichotomy i n with hi | rfl | hi
  · have hleft : i < (window d h n).length := by
      rw [length_window h hn.le]
      exact hi
    rw [getElem?_window (by omega) (by rw [List.length_set]; omega),
      List.getElem?_append_left hleft, getElem?_window hi hn.le,
      List.length_set, List.getElem?_set_ne (offset_ne hi hn)]
  · have hright : (window d h i).length = i := length_window h hn.le
    rw [getElem?_window (by omega) (by rw [List.length_set]; omega),
      List.getElem?_append_right (by omega), hright, List.length_set,
      Nat.add_comm i h]
    simp [Nat.mod_lt _ hpos]
  · have hl : (window (d.set ((h + n) % d.length) x) h (n + 1)).length ≤ i := by
      rw [length_window h (by rw [List.length_set]; omega)]
      omega
    have hr : (window d h n ++ [x]).length ≤ i := by
      rw [List.length_append, length_window h hn.le, List.length_singleton]
      omega
    rw [List.getElem?_eq_none hl, List.getElem?_eq_none hr]

/-- The first cell of a nonempty window, and the window after it. -/
theorem window_succ
    {d : List α} {n : ℕ}
    (h : ℕ) (hn : n < d.length) :
    window d h (n + 1) =
      d.get ⟨h % d.length, Nat.mod_lt _ (by omega)⟩ :: window d (h + 1) n := by
  apply List.ext_getElem?
  intro i
  cases i with
  | zero =>
      rw [getElem?_window (by omega) (by omega)]
      simp
  | succ i =>
      by_cases hi : i < n
      · rw [getElem?_window (by omega) (by omega), List.getElem?_cons_succ,
          getElem?_window hi hn.le]
        congr 2
        omega
      · have hl : (window d h (n + 1)).length ≤ i + 1 := by
          rw [length_window h (by omega)]
          omega
        have hr : (window d (h + 1) n).length ≤ i := by
          rw [length_window (h + 1) hn.le]
          omega
        rw [List.getElem?_eq_none hl, List.getElem?_cons_succ,
          List.getElem?_eq_none hr]

end RingWindow
