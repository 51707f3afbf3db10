import KoalaStreamer.Library.EventMachine
import Mathlib.Algebra.BigOperators.Group.Finset.Basic
import Mathlib.Algebra.Order.BigOperators.Group.Finset
import Mathlib.Data.Fintype.Basic
import Mathlib.Data.List.Count

/-!
# Accounting for tokens that move between places

A custody says which tokens each of finitely many places holds.  `held` counts
a token over all places, so that moving a token, creating one and losing one
are equations between natural numbers.

Tokens are numbers handed out in order: `next` is the first one not handed out.

Main results:
* `place_unique`: a token held at most once is in one place;
* `AtMostOnce.step`, `ExactlyOnce.step`: what a balanced step preserves;
* `exactlyOnce_iff`: along a run, every token is always held exactly once if and
  only if no step loses one.
-/

namespace TokenAccounting

open EventMachine

universe u v w x

section Custody

variable {P : Type u} {α : Type v} [Fintype P] [DecidableEq α]

/-- How often a token is held, over all places. -/
def held (c : P → List α) (a : α) : ℕ :=
  ∑ p, (c p).count a

/-- Giving a place other tokens changes the count by these tokens. -/
theorem held_update
    [DecidableEq P] (c : P → List α) (p : P) (l : List α) (a : α) :
    held (Function.update c p l) a + (c p).count a = held c a + l.count a := by
  simp only [held]
  rw [← Finset.add_sum_erase Finset.univ _ (Finset.mem_univ p),
    ← Finset.add_sum_erase Finset.univ (fun q => (c q).count a) (Finset.mem_univ p),
    Function.update_self]
  have hrest : ∑ q ∈ Finset.univ.erase p,
      (Function.update c p l q).count a =
      ∑ q ∈ Finset.univ.erase p, (c q).count a := by
    refine Finset.sum_congr rfl ?_
    intro q hq
    rw [Function.update_of_ne (Finset.ne_of_mem_erase hq)]
  rw [hrest]
  omega

/-- Two places together hold a token at most as often as all places do. -/
theorem count_add_count_le_held
    (c : P → List α) {p q : P} (hpq : p ≠ q) (a : α) :
    (c p).count a + (c q).count a ≤ held c a := by
  classical
  simp only [held]
  rw [← Finset.add_sum_erase Finset.univ _ (Finset.mem_univ p)]
  exact Nat.add_le_add_left
    (Finset.single_le_sum (f := fun r => (c r).count a)
      (fun _ _ => Nat.zero_le _)
      (Finset.mem_erase.mpr ⟨hpq.symm, Finset.mem_univ q⟩)) _

theorem count_le_held
    (c : P → List α) (p : P) (a : α) :
    (c p).count a ≤ held c a :=
  Finset.single_le_sum (f := fun r => (c r).count a)
    (fun _ _ => Nat.zero_le _) (Finset.mem_univ p)

/-- A token held at most once is in at most one place. -/
theorem place_unique
    {c : P → List α} {a : α} {p q : P}
    (honce : held c a ≤ 1)
    (hp : a ∈ c p) (hq : a ∈ c q) : p = q := by
  by_contra hpq
  have hle := count_add_count_le_held c hpq a
  have hcp := List.count_pos_iff.mpr hp
  have hcq := List.count_pos_iff.mpr hq
  omega

/-- No place holds twice what is held at most once. -/
theorem nodup_of_held
    {c : P → List α}
    (honce : ∀ a, held c a ≤ 1) (p : P) : (c p).Nodup :=
  List.nodup_iff_count_le_one.mpr fun a => (count_le_held c p a).trans (honce a)

/-- A token is held exactly if some place has it. -/
theorem held_pos_iff
    {c : P → List α} {a : α} :
    0 < held c a ↔ ∃ p, a ∈ c p := by
  simp only [held]
  rw [Finset.sum_pos_iff]
  simp [List.count_pos_iff]

end Custody

section Supply

variable {P : Type u} [Fintype P]
  {c c' : P → List ℕ} {next next' : ℕ} {lost : List ℕ}

/-- Nothing is held twice, and only what was handed out is held. -/
def AtMostOnce (c : P → List ℕ) (next : ℕ) : Prop :=
  ∀ a, held c a ≤ if a < next then 1 else 0

/-- Exactly the tokens handed out are held, each once. -/
def ExactlyOnce (c : P → List ℕ) (next : ℕ) : Prop :=
  ∀ a, held c a = if a < next then 1 else 0

/-- How often a step hands out a token if it hands out those from `next` to
`next'`. -/
def issued (next next' a : ℕ) : ℕ :=
  if next ≤ a ∧ a < next' then 1 else 0

@[simp] theorem issued_self
    (next a : ℕ) :
    issued next next a = 0 :=
  if_neg fun h => absurd h.2 (Nat.not_lt.mpr h.1)

@[simp] theorem issued_succ
    (next a : ℕ) :
    issued next (next + 1) a = [next].count a := by
  simp only [issued]
  rw [List.count_singleton]
  by_cases ha : next = a
  · simp [ha]
  · rw [if_neg (by omega), if_neg (by simpa using ha)]

/-- A step hands out the tokens from `next` to `next'` and loses `lost`. -/
structure Balanced
    (c : P → List ℕ) (next : ℕ) (c' : P → List ℕ) (next' : ℕ)
    (lost : List ℕ) : Prop where
  supply : next ≤ next'
  balance : ∀ a, held c' a + lost.count a = held c a + issued next next' a

/-- Nothing handed out, nothing held. -/
theorem exactlyOnce_empty
    (hempty : ∀ p, c p = []) : ExactlyOnce c 0 := by
  intro a
  rw [if_neg (Nat.not_lt_zero a)]
  by_contra hheld
  obtain ⟨p, hp⟩ := held_pos_iff.mp (Nat.pos_of_ne_zero hheld)
  rw [hempty p] at hp
  cases hp

/-- What is held at most once is held exactly once if it is held at all. -/
theorem AtMostOnce.exactlyOnce_iff
    (h : AtMostOnce c next) :
    ExactlyOnce c next ↔ ∀ a, a < next → ∃ p, a ∈ c p := by
  constructor
  · intro hall a ha
    rw [← held_pos_iff, hall a, if_pos ha]
    exact Nat.one_pos
  · intro hall a
    have hle := h a
    split_ifs at hle ⊢ with ha
    · have hpos := held_pos_iff.mpr (hall a ha)
      omega
    · omega

theorem ExactlyOnce.atMostOnce
    (h : ExactlyOnce c next) : AtMostOnce c next :=
  fun a => (h a).le

theorem AtMostOnce.le_one
    (h : AtMostOnce c next) (a : ℕ) : held c a ≤ 1 := by
  have ha := h a
  split at ha <;> omega

/-- Whatever a balanced step loses, nothing is held twice after it. -/
theorem AtMostOnce.step
    (h : AtMostOnce c next)
    (hstep : Balanced c next c' next' lost) : AtMostOnce c' next' := by
  intro a
  have ha := h a
  have hbal := hstep.balance a
  have hle := hstep.supply
  simp only [issued] at hbal
  split_ifs at ha hbal ⊢ <;> omega

/-- A balanced step that loses nothing keeps every token. -/
theorem ExactlyOnce.step
    (h : ExactlyOnce c next)
    (hstep : Balanced c next c' next' []) : ExactlyOnce c' next' := by
  intro a
  have ha := h a
  have hbal := hstep.balance a
  have hle := hstep.supply
  simp only [issued] at hbal
  rw [List.count_nil] at hbal
  split_ifs at ha hbal ⊢ <;> omega

/-- After a balanced step that loses something, a token is missing. -/
theorem not_exactlyOnce_of_lost
    (h : AtMostOnce c next)
    (hstep : Balanced c next c' next' lost)
    (hlost : lost ≠ []) : ¬ ExactlyOnce c' next' := by
  intro hall
  obtain ⟨a, ha⟩ := List.exists_mem_of_ne_nil lost hlost
  have hcount := List.count_pos_iff.mpr ha
  have hheld := h a
  have hheld' := hall a
  have hbal := hstep.balance a
  have hle := hstep.supply
  simp only [issued] at hbal
  split_ifs at hheld hheld' hbal <;> omega

end Supply

section Runs

variable {σ : Type u} {ι : Type v} {ε : Type w} {P : Type x}
  [Fintype P]
  {m : Machine σ ι ε} {s₀ : σ}
  (custody : σ → P → List ℕ) (next : σ → ℕ) (lost : σ → ι → List ℕ)

/-- Along a run of balanced steps nothing is ever held twice; `I` is what the
balance of a step needs to know of the state before it. -/
theorem run_atMostOnce
    {I : σ → Prop}
    (hI : ∀ {tr s}, Run m s₀ tr s → I s)
    (init : ExactlyOnce (custody s₀) (next s₀))
    (step : ∀ {s a s' es}, I s → m s a = some (s', es) →
      Balanced (custody s) (next s) (custody s') (next s') (lost s a))
    {tr : List (Transition σ ι ε)} {s : σ}
    (run : Run m s₀ tr s) :
    AtMostOnce (custody s) (next s) := by
  induction run with
  | nil =>
      exact init.atMostOnce
  | snoc run hstep ih =>
      exact ih.step (step (hI run) hstep)

/-- Along a run of balanced steps, every token handed out is held in every
state reached if and only if no step loses one. -/
theorem exactlyOnce_iff
    {I : σ → Prop}
    (hI : ∀ {tr s}, Run m s₀ tr s → I s)
    (init : ExactlyOnce (custody s₀) (next s₀))
    (step : ∀ {s a s' es}, I s → m s a = some (s', es) →
      Balanced (custody s) (next s) (custody s') (next s') (lost s a))
    {tr : List (Transition σ ι ε)} {s : σ}
    (run : Run m s₀ tr s) :
    (∀ τ ∈ tr, ExactlyOnce (custody τ.dst) (next τ.dst)) ↔
      ∀ τ ∈ tr, lost τ.src τ.action = [] := by
  constructor
  · intro hall τ hτ
    by_contra hlost
    obtain ⟨tr', _, hrun⟩ := run.prefix_of_mem τ hτ
    have hbefore := run_atMostOnce custody next lost hI init step hrun
    have hbal := step (hI hrun) (run.valid τ hτ)
    exact not_exactlyOnce_of_lost hbefore hbal hlost (hall τ hτ)
  · intro hnone
    have hinv : (∀ τ ∈ tr, ExactlyOnce (custody τ.dst) (next τ.dst)) ∧
        ExactlyOnce (custody s) (next s) := by
      induction run with
      | nil =>
          exact ⟨by simp, init⟩
      | @snoc tr s t a es run hstep ih =>
          obtain ⟨hall, hs⟩ := ih fun τ hτ => hnone τ (List.mem_append_left _ hτ)
          have hkeep : lost s a = [] := hnone ⟨s, a, es, t⟩ (by simp)
          have hbal := step (hI run) hstep
          rw [hkeep] at hbal
          have ht := hs.step hbal
          refine ⟨?_, ht⟩
          intro τ hτ
          rcases List.mem_append.mp hτ with hτ | hτ
          · exact hall τ hτ
          · rw [List.mem_singleton.mp hτ]
            exact ht
    exact hinv.1

end Runs

end TokenAccounting
