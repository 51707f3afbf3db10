import Mathlib.Algebra.Order.Group.Unbundled.Int
import Mathlib.Algebra.Order.Ring.Int
import Mathlib.Tactic.Linarith
import Mathlib.Tactic.Ring

/-!
# Rounding an exact quotient to the nearest integer

`IsNearest n d q` says that `q` is `n / d` rounded to the nearest integer,
halves away from zero.  Only integers are compared.

Main results:
* `IsNearest.mono`: rounding keeps the order of the numerators;
* `IsNearest.lt_of_add_le`: numerators a whole denominator apart are rounded to
  different integers;
* `roundDiv_isNearest`: `roundDiv` computes the rounded quotient.
-/

namespace NearestRounding

section Nearest

variable {n n' d q q' : Int}

/-- `q` is `n / d` rounded to nearest, halves away from zero. -/
def IsNearest (n d q : Int) : Prop :=
  2 * |n - q * d| < d ∨ (2 * |n - q * d| = d ∧ |n| < |q * d|)

/-- A rounded quotient is within one half of the exact one. -/
theorem IsNearest.two_mul_abs_le
    (h : IsNearest n d q) : 2 * |n - q * d| ≤ d := by
  rcases h with hlt | ⟨heq, _⟩
  · exact hlt.le
  · exact heq.le

/-- Multiples of a positive number compare as the factors do. -/
theorem lt_of_mul_lt
    (hd : 0 < d) (h : q * d < q' * d) : q < q' :=
  lt_of_mul_lt_mul_right h hd.le

/-- A non-negative numerator: `q` is the floor of `n / d + 1 / 2`. -/
theorem IsNearest.bounds_of_nonneg
    (hd : 0 < d) (hn : 0 ≤ n) (h : IsNearest n d q) :
    2 * (q * d) ≤ 2 * n + d ∧ 2 * n < 2 * (q * d) + d := by
  have hle := h.two_mul_abs_le
  have hup := le_abs_self (n - q * d)
  have hlow := neg_le_abs (n - q * d)
  rcases h with hlt | ⟨heq, haway⟩
  · constructor <;> omega
  · refine ⟨by omega, ?_⟩
    by_contra hge
    -- a half above `q * d` would have been rounded up
    have hpos : 0 ≤ q * d := by
      by_contra hneg
      have hq : q < 0 := lt_of_mul_lt hd (by omega)
      have hqd : q * d ≤ -1 * d := mul_le_mul_of_nonneg_right (by omega) hd.le
      omega
    rw [abs_of_nonneg hn, abs_of_nonneg hpos] at haway
    omega

/-- A negative numerator: `q` is the ceiling of `n / d - 1 / 2`. -/
theorem IsNearest.bounds_of_neg
    (hd : 0 < d) (hn : n < 0) (h : IsNearest n d q) :
    2 * (q * d) < 2 * n + d ∧ 2 * n ≤ 2 * (q * d) + d := by
  have hle := h.two_mul_abs_le
  have hup := le_abs_self (n - q * d)
  have hlow := neg_le_abs (n - q * d)
  rcases h with hlt | ⟨heq, haway⟩
  · constructor <;> omega
  · refine ⟨?_, by omega⟩
    by_contra hge
    -- a half below `q * d` would have been rounded down
    have hneg : q * d ≤ 0 := by
      by_contra hpos
      have hq : 0 < q := lt_of_mul_lt hd (by omega)
      have hqd : 1 * d ≤ q * d := mul_le_mul_of_nonneg_right (by omega) hd.le
      omega
    rw [abs_of_neg hn, abs_of_nonpos hneg] at haway
    omega

/-- Rounding is monotone in the numerator. -/
theorem IsNearest.mono
    (hd : 0 < d) (hle : n ≤ n')
    (h : IsNearest n d q) (h' : IsNearest n' d q') : q ≤ q' := by
  have hlt : q * d < (q' + 1) * d := by
    rw [add_mul, one_mul]
    rcases lt_or_ge n 0 with hn | hn
    · have hlow := (h.bounds_of_neg hd hn).1
      have hup' := le_abs_self (n' - q' * d)
      have hle' := h'.two_mul_abs_le
      omega
    · have hup := (h'.bounds_of_nonneg hd (by omega)).2
      have hlow := neg_le_abs (n - q * d)
      have hle := h.two_mul_abs_le
      omega
  have := lt_of_mul_lt hd hlt
  omega

/-- Numerators at least one denominator apart do not meet after rounding. -/
theorem IsNearest.lt_of_add_le
    (hd : 0 < d) (hle : n + d ≤ n')
    (h : IsNearest n d q) (h' : IsNearest n' d q') : q < q' := by
  apply lt_of_mul_lt hd
  rcases lt_or_ge n 0 with hn | hn
  · have hlow := (h.bounds_of_neg hd hn).1
    have hup' := le_abs_self (n' - q' * d)
    have hle' := h'.two_mul_abs_le
    omega
  · have hup := (h'.bounds_of_nonneg hd (by omega)).2
    have hlow := neg_le_abs (n - q * d)
    have hle := h.two_mul_abs_le
    omega

/-- The rounded quotient, computed by division of integers. -/
def roundDiv (n d : Int) : Int :=
  if 0 ≤ n then (2 * n + d) / (2 * d) else -((2 * -n + d) / (2 * d))

/-- Rounding is symmetric about zero. -/
theorem IsNearest.neg
    (h : IsNearest n d q) : IsNearest (-n) d (-q) := by
  have hdiff : -n - -q * d = -(n - q * d) := by ring
  simp only [IsNearest] at h ⊢
  rw [hdiff, neg_mul, abs_neg, abs_neg, abs_neg]
  exact h

/-- The floor of `n / d + 1 / 2` rounds a non-negative numerator. -/
theorem isNearest_of_bounds
    (hn : 0 ≤ n)
    (hlow : 2 * (q * d) ≤ 2 * n + d)
    (hup : 2 * n < 2 * (q * d) + d) :
    IsNearest n d q := by
  rcases le_total (q * d) n with hle | hle
  · left
    rw [abs_of_nonneg (by omega)]
    omega
  · rw [IsNearest, abs_of_nonpos (by omega : n - q * d ≤ 0), abs_of_nonneg hn,
      abs_of_nonneg (hn.trans hle)]
    omega

/-- `roundDiv` rounds to nearest, halves away from zero. -/
theorem roundDiv_isNearest
    (n : Int) (hd : 0 < d) : IsNearest n d (roundDiv n d) := by
  have floor : ∀ m : Int, 0 ≤ m → IsNearest m d ((2 * m + d) / (2 * d)) := by
    intro m hm
    have hlow := Int.mul_ediv_self_le (x := 2 * m + d) (k := 2 * d) (by omega)
    have hup := Int.lt_mul_ediv_self_add (x := 2 * m + d) (k := 2 * d) (by omega)
    refine isNearest_of_bounds hm ?_ ?_ <;> linarith
  simp only [roundDiv]
  split
  · exact floor n ‹_›
  · rw [← neg_neg n, neg_neg (-n)]
    exact (floor (-n) (by omega)).neg

end Nearest

end NearestRounding
