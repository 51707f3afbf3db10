import KoalaStreamer.Library.TokenAccounting
import Mathlib.Algebra.GroupWithZero.Nat

/-!
# What is held and what was lost, together

The balance of the steps, summed over a run: every token handed out is held once or was
lost once.  Read over a list of all the places, this is a permutation of the tokens.

Main results:
* `run_accounted`: along a run of balanced steps every token is accounted for;
* `Accounted.perm`: the same for lists.
-/

namespace TokenAccounting

open EventMachine

universe u v w x

section Ledger

variable {P : Type u} [Fintype P]
  {c c' : P → List ℕ} {next next' : ℕ} {lost lost' : List ℕ}

/-- Every token handed out is held once, or lost once and not held. -/
def Accounted (c : P → List ℕ) (next : ℕ) (lost : List ℕ) : Prop :=
  ∀ a, held c a + lost.count a = if a < next then 1 else 0

theorem ExactlyOnce.accounted
    (h : ExactlyOnce c next) : Accounted c next [] := by
  intro a
  rw [List.count_nil, Nat.add_zero]
  exact h a

/-- A balanced step adds what it loses. -/
theorem Accounted.step
    (h : Accounted c next lost)
    (hstep : Balanced c next c' next' lost') : Accounted c' next' (lost ++ lost') := by
  intro a
  have ha := h a
  have hbal := hstep.balance a
  have hle := hstep.supply
  rw [List.count_append]
  simp only [issued] at hbal
  split_ifs at ha hbal ⊢ <;> omega

/-- What a list of all the places holds is counted as the places are. -/
theorem count_flatMap_places
    {places : List P} (hnodup : places.Nodup) (hall : ∀ p, p ∈ places)
    (c : P → List ℕ) (a : ℕ) :
    (places.flatMap c).count a = held c a := by
  classical
  have huniv : places.toFinset = Finset.univ :=
    Finset.eq_univ_iff_forall.mpr fun p => List.mem_toFinset.mpr (hall p)
  rw [List.count_flatMap, held, ← huniv, List.sum_toFinset _ hnodup]
  rfl

/-- What is held and what was lost are the tokens handed out, in some order. -/
theorem Accounted.perm
    (h : Accounted c next lost)
    {places : List P} (hnodup : places.Nodup) (hall : ∀ p, p ∈ places) :
    (places.flatMap c ++ lost).Perm (List.range next) := by
  rw [List.perm_iff_count]
  intro a
  rw [List.count_append, count_flatMap_places hnodup hall, h a]
  split
  · rename_i ha
    exact (List.count_eq_one_of_mem List.nodup_range (List.mem_range.mpr ha)).symm
  · rename_i ha
    exact (List.count_eq_zero_of_not_mem fun hmem => ha (List.mem_range.mp hmem)).symm

end Ledger

section Runs

variable {σ : Type u} {ι : Type v} {ε : Type w} {P : Type x}
  [Fintype P]
  {m : Machine σ ι ε} {s₀ : σ}
  (custody : σ → P → List ℕ) (next : σ → ℕ) (lost : σ → ι → List ℕ)

/-- Along a run of balanced steps every token handed out is accounted for. -/
theorem run_accounted
    {I : σ → Prop}
    (hI : ∀ {tr s}, Run m s₀ tr s → I s)
    (init : ExactlyOnce (custody s₀) (next s₀))
    (step : ∀ {s a s' es}, I s → m s a = some (s', es) →
      Balanced (custody s) (next s) (custody s') (next s') (lost s a))
    {tr : List (Transition σ ι ε)} {s : σ}
    (run : Run m s₀ tr s) :
    Accounted (custody s) (next s) (tr.flatMap fun τ => lost τ.src τ.action) := by
  induction run with
  | nil =>
      exact init.accounted
  | snoc run hstep ih =>
      rw [List.flatMap_append, List.flatMap_singleton]
      exact ih.step (step (hI run) hstep)

end Runs

end TokenAccounting
