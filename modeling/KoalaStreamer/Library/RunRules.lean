import KoalaStreamer.Library.EventMachine
import Mathlib.Algebra.GroupWithZero.Nat
import Mathlib.Data.List.Count

/-!
# Rules about runs: simulation, projection and counting

* `Run.simulates`: if every step of a machine is answered by a run of another one that
  shows the same, then so is every run;
* `Run.projected`: if each step, seen through a function on transitions, is a step of another
  machine, then so is every run;
* `Run.mapped`, `Run.lifted`: if each step, seen through a function, is the step of another
  machine, the two machines have the same runs up to this function;
* `Run.amortized`: if every counted step is paid for by the measure or by what a step
  brings, no more steps are counted than there was and was brought;
* `Run.count_le`: if no step brings anything, no more than there was.

A simulation relates states only; what the two machines show of a step is a list of
observations, for the abstract machine the visible ones of its events.
-/

namespace EventMachine

universe u v w u' v' w' x

section Simulation

variable {σ : Type u} {ι : Type v} {ε : Type w} {σ' : Type u'} {ι' : Type v'} {ε' : Type w'}
  {ω : Type x} {m : Machine σ ι ε} {m' : Machine σ' ι' ε'} {s₀ : σ} {s₀' : σ'}

theorem eventsOf_append
    (tr tr' : List (Transition σ ι ε)) :
    eventsOf (tr ++ tr') = eventsOf tr ++ eventsOf tr' := by
  simp [eventsOf]

/--
Forward simulation.  A step may be answered by any number of abstract steps, none
included; `visible` hides what an abstract event does not show.
-/
theorem Run.simulates
    (R : σ → σ' → Prop) (obs : Transition σ ι ε → List ω) (visible : ε' → Option ω)
    (init : R s₀ s₀')
    (step : ∀ {tr s a es t s'}, Run m s₀ tr s → R s s' → m s a = some (t, es) →
      ∃ tr' t', Run m' s' tr' t' ∧ R t t' ∧
        (eventsOf tr').filterMap visible = obs ⟨s, a, es, t⟩)
    {tr : List (Transition σ ι ε)} {s : σ}
    (run : Run m s₀ tr s) :
    ∃ tr' s', Run m' s₀' tr' s' ∧ R s s' ∧
      (eventsOf tr').filterMap visible = tr.flatMap obs := by
  induction run with
  | nil =>
      exact ⟨[], s₀', Run.nil, init, rfl⟩
  | snoc run hstep ih =>
      obtain ⟨tr', s', run', hR, hobs⟩ := ih
      obtain ⟨tr'', t', run'', hR', hobs'⟩ := step run hR hstep
      refine ⟨tr' ++ tr'', t', run'.append run'', hR', ?_⟩
      rw [eventsOf_append, List.filterMap_append, hobs, hobs', List.flatMap_append,
        List.flatMap_singleton]

end Simulation

section Projection

variable {σ : Type u} {ι : Type v} {ε : Type w} {σ' : Type u'} {ι' : Type v'} {ε' : Type w'}
  {m : Machine σ ι ε} {m' : Machine σ' ι' ε'} {s₀ : σ}

/-- If each step that is reached, seen through `g`, is one of `m'`, so is the run. -/
theorem Run.projected
    (f : σ → σ') (g : Transition σ ι ε → Transition σ' ι' ε')
    (step : ∀ tr τ, Run m s₀ tr τ.src → τ.Valid m →
      (g τ).Valid m' ∧ (g τ).src = f τ.src ∧ (g τ).dst = f τ.dst)
    {tr : List (Transition σ ι ε)} {s : σ}
    (run : Run m s₀ tr s) :
    Run m' (f s₀) (tr.map g) (f s) := by
  induction run with
  | nil =>
      exact Run.nil
  | @snoc tr s t a es run hstep ih =>
      obtain ⟨hvalid, hsrc, hdst⟩ := step tr ⟨s, a, es, t⟩ run hstep
      rw [← hsrc] at ih
      rw [List.map_append, ← hdst]
      exact Run.snoc ih hvalid

end Projection

section Mapping

variable {σ : Type u} {ι : Type v} {ε : Type w} {σ' : Type u'} {ε' : Type w'}
  {m : Machine σ ι ε} {m' : Machine σ' ι ε'} {s₀ : σ} {s₀' : σ'}
  (f : σ → σ') (g : σ → List ε → List ε')

/-- A transition seen through a function on states and one on the events of a state. -/
def Transition.map (τ : Transition σ ι ε) : Transition σ' ι ε' where
  src := f τ.src
  action := τ.action
  events := g τ.src τ.events
  dst := f τ.dst

/-- In the states that are reached, each step seen through `f` is the one of `m'`. -/
def Commutes (m : Machine σ ι ε) (m' : Machine σ' ι ε') (s₀ : σ) : Prop :=
  ∀ tr s a, Run m s₀ tr s →
    (m s a).map (fun r => (f r.1, g s r.2)) = m' (f s) a

variable {f g}

/-- Every run is one of `m'`. -/
theorem Run.mapped
    (h : Commutes f g m m' s₀) (init : f s₀ = s₀')
    {tr : List (Transition σ ι ε)} {s : σ}
    (run : Run m s₀ tr s) :
    Run m' s₀' (tr.map (Transition.map f g)) (f s) := by
  subst init
  refine Run.projected f (Transition.map f g) (fun tr τ hrun hvalid => ?_) run
  have hstep := h tr τ.src τ.action hrun
  rw [show m τ.src τ.action = some (τ.dst, τ.events) from hvalid] at hstep
  exact ⟨hstep.symm, rfl, rfl⟩

/-- Every run of `m'` is one of the machine, seen through `f`. -/
theorem Run.lifted
    (h : Commutes f g m m' s₀) (init : f s₀ = s₀')
    {tr' : List (Transition σ' ι ε')} {s' : σ'}
    (run : Run m' s₀' tr' s') :
    ∃ tr s, Run m s₀ tr s ∧ f s = s' ∧ tr.map (Transition.map f g) = tr' := by
  induction run with
  | nil =>
      exact ⟨[], s₀, Run.nil, init, rfl⟩
  | @snoc tr' s' t' a es' run' hstep ih =>
      obtain ⟨tr, s, run, rfl, rfl⟩ := ih
      have hstep' := h tr s a run
      rw [hstep, Option.map_eq_some_iff] at hstep'
      obtain ⟨⟨t, es⟩, hmoves, heq⟩ := hstep'
      obtain ⟨rfl, rfl⟩ := Prod.mk.inj heq
      refine ⟨tr ++ [⟨s, a, es, t⟩], t, Run.snoc run hmoves, rfl, ?_⟩
      rw [List.map_append]
      rfl

end Mapping

section Counting

variable {σ : Type u} {ι : Type v} {ε : Type w} {m : Machine σ ι ε} {s₀ : σ}

/--
Amortized counting.  `brought` is what a step may add to the measure; each step that is
counted costs one.
-/
theorem Run.amortized
    (I : σ → Prop) (μ : σ → ℕ) (counted : Transition σ ι ε → Bool)
    (brought : Transition σ ι ε → ℕ)
    (step : ∀ {s a es t}, I s → m s a = some (t, es) →
      I t ∧ μ t + (if counted ⟨s, a, es, t⟩ then 1 else 0) ≤ μ s + brought ⟨s, a, es, t⟩)
    {tr : List (Transition σ ι ε)} {s : σ}
    (run : Run m s₀ tr s) (hI : I s₀) :
    I s ∧ μ s + tr.countP counted ≤ μ s₀ + (tr.map brought).sum := by
  induction run with
  | nil =>
      exact ⟨hI, Nat.le_refl _⟩
  | snoc run hstep ih =>
      obtain ⟨hIs, hle⟩ := ih
      obtain ⟨hIt, hpaid⟩ := step hIs hstep
      refine ⟨hIt, ?_⟩
      rw [List.countP_append, List.countP_singleton, List.map_append, List.sum_append,
        List.map_singleton, List.sum_singleton]
      omega

/--
Counting rule.  Every step keeps `I` and does not raise the measure; those that are
counted lower it.
-/
theorem Run.count_le
    (I : σ → Prop) (μ : σ → ℕ) (counted : Transition σ ι ε → Bool)
    (step : ∀ {s a es t}, I s → m s a = some (t, es) →
      I t ∧ μ t + (if counted ⟨s, a, es, t⟩ then 1 else 0) ≤ μ s)
    {tr : List (Transition σ ι ε)} {s : σ}
    (run : Run m s₀ tr s) (hI : I s₀) :
    I s ∧ μ s + tr.countP counted ≤ μ s₀ := by
  obtain ⟨hIs, hle⟩ := Run.amortized I μ counted (fun _ => 0) step run hI
  rw [List.map_const', List.sum_replicate_nat, Nat.mul_zero] at hle
  exact ⟨hIs, hle⟩

end Counting

end EventMachine
