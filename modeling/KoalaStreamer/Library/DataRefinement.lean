import Mathlib.Data.List.Basic

/-!
# Data refinement

An object performs one operation at a time: it answers and moves to its next
state, or it goes wrong.  A specification is an object on simpler states that
cannot go wrong.

`Refines R m spec` is the step condition: on states related by `R` the object
does not go wrong, gives the answer of the specification and stays related.

Main result:
* `Refines.runAll`: then every sequence of operations gives the same answers and
  keeps the states related.
-/

namespace DataRefinement

universe u v w x y

section Objects

variable {σ : Type u} {α : Type v} {Op : Type w} {ρ : Type x} {φ : Type y}

/-- An implementation: an operation may go wrong. -/
abbrev Object (σ : Type u) (Op : Type w) (ρ : Type x) (φ : Type y) :=
  σ → Op → Except φ (ρ × σ)

/-- A specification: every operation has an answer. -/
abbrev Spec (α : Type v) (Op : Type w) (ρ : Type x) :=
  α → Op → ρ × α

/-- Perform the operations in order: the answers and the last state. -/
def runAll (m : Object σ Op ρ φ) : σ → List Op → Except φ (List ρ × σ)
  | s, [] => .ok ([], s)
  | s, op :: ops =>
      match m s op with
      | .error e => .error e
      | .ok (r, t) =>
          match runAll m t ops with
          | .error e => .error e
          | .ok (rs, u) => .ok (r :: rs, u)

/-- The answers and the last state that the specification prescribes. -/
def specAll (spec : Spec α Op ρ) : α → List Op → List ρ × α
  | a, [] => ([], a)
  | a, op :: ops =>
      let next := specAll spec (spec a op).2 ops
      ((spec a op).1 :: next.1, next.2)

@[simp] theorem specAll_nil
    (spec : Spec α Op ρ) (a : α) :
    specAll spec a [] = ([], a) := by
  rfl

@[simp] theorem specAll_cons
    (spec : Spec α Op ρ) (a : α) (op : Op) (ops : List Op) :
    specAll spec a (op :: ops) =
      ((spec a op).1 :: (specAll spec (spec a op).2 ops).1,
        (specAll spec (spec a op).2 ops).2) := by
  rfl

/-- The specification after one operation more. -/
theorem specAll_snoc
    (spec : Spec α Op ρ) (a : α) (ops : List Op) (op : Op) :
    (specAll spec a (ops ++ [op])).2 = (spec (specAll spec a ops).2 op).2 := by
  induction ops generalizing a with
  | nil =>
      rfl
  | cons op' ops ih =>
      exact ih (spec a op').2

/-- The answers of a specification that answers every operation alike. -/
theorem specAll_answers
    (spec : Spec α Op ρ) {r : ρ}
    (h : ∀ a op, (spec a op).1 = r)
    (a : α) (ops : List Op) :
    (specAll spec a ops).1 = ops.map fun _ => r := by
  induction ops generalizing a with
  | nil =>
      rfl
  | cons op ops ih =>
      rw [specAll_cons, List.map_cons, h, ih]

/-- On related states the object does what the specification says. -/
def Refines
    (R : σ → α → Prop) (m : Object σ Op ρ φ) (spec : Spec α Op ρ) : Prop :=
  ∀ s a op, R s a → ∃ t, m s op = .ok ((spec a op).1, t) ∧ R t (spec a op).2

variable {R : σ → α → Prop} {m : Object σ Op ρ φ} {spec : Spec α Op ρ}

/-- Every sequence of operations gives the answers of the specification. -/
theorem Refines.runAll
    (h : Refines R m spec)
    (ops : List Op) {s : σ} {a : α} (hR : R s a) :
    ∃ t, DataRefinement.runAll m s ops = .ok ((specAll spec a ops).1, t) ∧
      R t (specAll spec a ops).2 := by
  induction ops generalizing s a with
  | nil =>
      exact ⟨s, rfl, hR⟩
  | cons op ops ih =>
      obtain ⟨t, hstep, ht⟩ := h s a op hR
      obtain ⟨u, hrest, hu⟩ := ih ht
      refine ⟨u, ?_, hu⟩
      simp only [DataRefinement.runAll, hstep, hrest, specAll_cons]

end Objects

end DataRefinement
