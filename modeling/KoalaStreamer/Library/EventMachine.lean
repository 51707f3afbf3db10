import Mathlib.Data.List.Basic
import Mathlib.Logic.Basic

/-!
# Event machines and their finite runs

An event machine takes a state and an action and either refuses the action or
answers with the next state and the list of events the step emits.  Every
choice of the environment (which thread moves, what a timed wait returns) is
part of the action, so one machine describes all interleavings at once.

A run records its transitions with both end states.  Two rules are used by
every development on top of this file:

* `Run.invariant`: what one step preserves holds along the whole run;
* `Run.prefix_of_mem`: the source of every transition of a run is itself reached
  by a run, so that what holds of all runs holds of it.

`Along` states a law about every transition of a run and what came before it.

`Run.of_exec` turns an evaluated list of actions into a run.  `drive` lets a
function of the state choose the actions; `drive_stops` is its termination rule.
-/

namespace EventMachine

universe u v w

section Machine

variable {σ : Type u} {ι : Type v} {ε : Type w}

/-- A partial labelled step function that emits events. -/
abbrev Machine (σ : Type u) (ι : Type v) (ε : Type w) :=
  σ → ι → Option (σ × List ε)

/-- One step of a run, with the states before and after it. -/
structure Transition (σ : Type u) (ι : Type v) (ε : Type w) where
  src : σ
  action : ι
  events : List ε
  dst : σ

/-- A transition that the machine can really take. -/
def Transition.Valid
    (m : Machine σ ι ε)
    (τ : Transition σ ι ε) : Prop :=
  m τ.src τ.action = some (τ.dst, τ.events)

/-- Finite runs from `s₀`: the transitions in order, and the last state. -/
inductive Run
    (m : Machine σ ι ε) (s₀ : σ) :
    List (Transition σ ι ε) → σ → Prop
  | nil : Run m s₀ [] s₀
  | snoc
      {tr : List (Transition σ ι ε)} {s t : σ} {a : ι} {es : List ε}
      (run : Run m s₀ tr s)
      (step : m s a = some (t, es)) :
      Run m s₀ (tr ++ [⟨s, a, es, t⟩]) t

/-- The events of a run in the order they were emitted. -/
def eventsOf (tr : List (Transition σ ι ε)) : List ε :=
  tr.flatMap (·.events)

@[simp] theorem eventsOf_nil :
    eventsOf ([] : List (Transition σ ι ε)) = [] := by
  rfl

@[simp] theorem eventsOf_snoc
    (tr : List (Transition σ ι ε)) (τ : Transition σ ι ε) :
    eventsOf (tr ++ [τ]) = eventsOf tr ++ τ.events := by
  simp [eventsOf]

variable {m : Machine σ ι ε} {s₀ : σ}

/-- Every recorded transition of a run is a step of the machine. -/
theorem Run.valid
    {tr : List (Transition σ ι ε)} {s : σ}
    (run : Run m s₀ tr s) :
    ∀ τ ∈ tr, τ.Valid m := by
  induction run with
  | nil =>
      simp
  | snoc run step ih =>
      intro τ hτ
      rcases List.mem_append.mp hτ with hτ | hτ
      · exact ih τ hτ
      · rw [List.mem_singleton.mp hτ]
        exact step

/--
Invariant rule.  The invariant may mention the transitions taken so far, and
the steps considered may be restricted to those that meet `C`.
-/
theorem Run.invariant_of
    (C : Transition σ ι ε → Prop)
    (I : List (Transition σ ι ε) → σ → Prop)
    (init : I [] s₀)
    (step : ∀ tr s a es t, I tr s → m s a = some (t, es) →
      C ⟨s, a, es, t⟩ → I (tr ++ [⟨s, a, es, t⟩]) t)
    {tr : List (Transition σ ι ε)} {s : σ}
    (run : Run m s₀ tr s)
    (hC : ∀ τ ∈ tr, C τ) :
    I tr s := by
  induction run with
  | nil =>
      exact init
  | snoc run hstep ih =>
      have hprev := ih (fun τ hτ => hC τ (by simp [hτ]))
      exact step _ _ _ _ _ hprev hstep (hC _ (by simp))

/-- Invariant rule over all runs. -/
theorem Run.invariant
    (I : List (Transition σ ι ε) → σ → Prop)
    (init : I [] s₀)
    (step : ∀ tr s a es t, I tr s → m s a = some (t, es) →
      I (tr ++ [⟨s, a, es, t⟩]) t)
    {tr : List (Transition σ ι ε)} {s : σ}
    (run : Run m s₀ tr s) :
    I tr s :=
  Run.invariant_of (fun _ => True) I init
    (fun tr s a es t hI hstep _ => step tr s a es t hI hstep)
    run (fun _ _ => trivial)

/-- The last transition of a run starts where the rest of the run ends. -/
theorem Run.snoc_inv
    {tr : List (Transition σ ι ε)} {τ : Transition σ ι ε} {s : σ}
    (run : Run m s₀ (tr ++ [τ]) s) :
    Run m s₀ tr τ.src ∧ τ.Valid m ∧ τ.dst = s := by
  generalize hall : tr ++ [τ] = all at run
  cases run with
  | nil =>
      simp at hall
  | snoc run step =>
      obtain ⟨rfl, hτ⟩ := List.append_inj' hall rfl
      obtain rfl := List.singleton_inj.mp hτ
      exact ⟨run, step, rfl⟩

/-- A run ends in its start state or in the target of one of its transitions. -/
theorem Run.last_eq
    {tr : List (Transition σ ι ε)} {s : σ}
    (run : Run m s₀ tr s) :
    (tr = [] ∧ s = s₀) ∨ ∃ τ ∈ tr, τ.dst = s := by
  cases run with
  | nil =>
      exact Or.inl ⟨rfl, rfl⟩
  | snoc run step =>
      exact Or.inr ⟨_, List.mem_append_right _ (List.mem_singleton_self _), rfl⟩

/-- The source of every transition of a run is reached by a prefix of the run. -/
theorem Run.prefix_of_mem
    {tr : List (Transition σ ι ε)} {s : σ}
    (run : Run m s₀ tr s) :
    ∀ τ ∈ tr, ∃ tr', tr' ++ [τ] <+: tr ∧ Run m s₀ tr' τ.src := by
  induction run with
  | nil =>
      simp
  | @snoc tr s t a es run step ih =>
      intro τ hτ
      rcases List.mem_append.mp hτ with hτ | hτ
      · obtain ⟨tr', hpre, hrun⟩ := ih τ hτ
        exact ⟨tr', hpre.trans (List.prefix_append _ _), hrun⟩
      · rw [List.mem_singleton.mp hτ]
        exact ⟨tr, List.prefix_refl _, run⟩

/-- `P` holds of every transition together with the transitions before it. -/
def Along
    (P : List (Transition σ ι ε) → Transition σ ι ε → Prop)
    (tr : List (Transition σ ι ε)) : Prop :=
  ∀ before τ, before ++ [τ] <+: tr → P before τ

theorem along_nil
    (P : List (Transition σ ι ε) → Transition σ ι ε → Prop) :
    Along P [] := by
  intro before τ hpre
  simp at hpre

theorem along_snoc_iff
    {P : List (Transition σ ι ε) → Transition σ ι ε → Prop}
    {tr : List (Transition σ ι ε)} {τ : Transition σ ι ε} :
    Along P (tr ++ [τ]) ↔ Along P tr ∧ P tr τ := by
  constructor
  · intro h
    exact ⟨fun before τ' hpre => h before τ' (hpre.trans (List.prefix_append _ _)),
      h tr τ (List.prefix_refl _)⟩
  · intro h before τ' hpre
    rcases List.prefix_concat_iff.mp hpre with heq | hpre
    · obtain ⟨rfl, hτ⟩ := List.append_inj' heq rfl
      obtain rfl := List.singleton_inj.mp hτ
      exact h.2
    · exact h.1 before τ' hpre

theorem mem_eventsOf_mono
    {before tr : List (Transition σ ι ε)} {e : ε}
    (hpre : before <+: tr) (h : e ∈ eventsOf before) :
    e ∈ eventsOf tr := by
  obtain ⟨rest, rfl⟩ := hpre
  simp only [eventsOf, List.flatMap_append, List.mem_append]
  exact Or.inl h

/-- An event of a run comes from one of its transitions. -/
theorem exists_of_mem_eventsOf
    {tr : List (Transition σ ι ε)} {e : ε}
    (h : e ∈ eventsOf tr) :
    ∃ before τ, before ++ [τ] <+: tr ∧ e ∈ τ.events := by
  obtain ⟨τ, hτ, he⟩ := List.mem_flatMap.mp h
  obtain ⟨before, rest, rfl⟩ := List.append_of_mem hτ
  exact ⟨before, τ, ⟨rest, by simp⟩, he⟩

/-- Runs compose. -/
theorem Run.append
    {tr₁ tr₂ : List (Transition σ ι ε)} {s t : σ}
    (run₁ : Run m s₀ tr₁ s)
    (run₂ : Run m s tr₂ t) :
    Run m s₀ (tr₁ ++ tr₂) t := by
  induction run₂ with
  | nil =>
      simpa using run₁
  | snoc _ step ih =>
      rw [← List.append_assoc]
      exact Run.snoc ih step

/-- A run of one step. -/
theorem Run.single
    {s t : σ} {a : ι} {es : List ε}
    (step : m s a = some (t, es)) :
    Run m s [⟨s, a, es, t⟩] t :=
  Run.snoc Run.nil step

/-- Execute a list of actions, recording the transitions. -/
def exec (m : Machine σ ι ε) :
    σ → List ι → Option (List (Transition σ ι ε) × σ)
  | s, [] => some ([], s)
  | s, a :: as =>
      match m s a with
      | none => none
      | some (t, es) =>
          match exec m t as with
          | none => none
          | some (tr, u) => some (⟨s, a, es, t⟩ :: tr, u)

/-- What `exec` computes is a run. -/
theorem Run.of_exec
    {as : List ι} {s t : σ} {tr : List (Transition σ ι ε)}
    (h : exec m s as = some (tr, t)) :
    Run m s tr t := by
  induction as generalizing s tr with
  | nil =>
      simp only [exec, Option.some.injEq, Prod.mk.injEq] at h
      obtain ⟨rfl, rfl⟩ := h
      exact Run.nil
  | cons a as ih =>
      simp only [exec] at h
      cases hstep : m s a with
      | none =>
          simp [hstep] at h
      | some r =>
          obtain ⟨t', es⟩ := r
          cases hrest : exec m t' as with
          | none =>
              simp [hstep, hrest] at h
          | some q =>
              obtain ⟨tr', u⟩ := q
              simp only [hstep, hrest, Option.some.injEq, Prod.mk.injEq] at h
              obtain ⟨rfl, rfl⟩ := h
              exact (Run.single hstep).append (ih hrest)

/-- A list of actions whose evaluation meets `P` gives a run that meets `P`. -/
theorem Run.exists_of_exec
    (m : Machine σ ι ε) (s₀ : σ) (as : List ι)
    (P : List (Transition σ ι ε) × σ → Prop) [DecidablePred P]
    (h : (exec m s₀ as).any (fun r => decide (P r)) = true) :
    ∃ tr s, Run m s₀ tr s ∧ P (tr, s) := by
  cases hexec : exec m s₀ as with
  | none =>
      simp [hexec] at h
  | some r =>
      obtain ⟨tr, s⟩ := r
      refine ⟨tr, s, Run.of_exec hexec, ?_⟩
      simpa [hexec] using h

/-- Let `choose` pick every action, for at most `n` steps. -/
def drive (m : Machine σ ι ε) (choose : σ → ι) :
    ℕ → σ → List (Transition σ ι ε) × σ
  | 0, s => ([], s)
  | n + 1, s =>
      match m s (choose s) with
      | none => ([], s)
      | some (t, es) =>
          (⟨s, choose s, es, t⟩ :: (drive m choose n t).1, (drive m choose n t).2)

/-- A driven machine makes a run whose actions are the chosen ones. -/
theorem Run.of_drive
    (m : Machine σ ι ε) (choose : σ → ι) (n : ℕ) (s : σ) :
    Run m s (drive m choose n s).1 (drive m choose n s).2 ∧
    ∀ τ ∈ (drive m choose n s).1, τ.action = choose τ.src := by
  induction n generalizing s with
  | zero =>
      exact ⟨Run.nil, by simp [drive]⟩
  | succ n ih =>
      simp only [drive]
      cases hstep : m s (choose s) with
      | none =>
          exact ⟨Run.nil, by simp⟩
      | some r =>
          obtain ⟨t, es⟩ := r
          obtain ⟨run, hact⟩ := ih t
          refine ⟨(Run.single hstep).append run, ?_⟩
          intro τ hτ
          rcases List.mem_cons.mp hτ with rfl | hτ
          · rfl
          · exact hact τ hτ

/--
Termination rule.  If the chosen steps decrease a measure, the machine refuses
the chosen action after a number of steps bounded by the measure.
-/
theorem drive_stops
    {choose : σ → ι}
    (I : σ → Prop) (μ : σ → ℕ)
    (step : ∀ s t es, I s → m s (choose s) = some (t, es) → I t ∧ μ t < μ s)
    (n : ℕ) (s : σ) (hI : I s) (hn : μ s < n) :
    m (drive m choose n s).2 (choose (drive m choose n s).2) = none := by
  induction n generalizing s with
  | zero =>
      exact absurd hn (Nat.not_lt_zero _)
  | succ n ih =>
      simp only [drive]
      cases hstep : m s (choose s) with
      | none =>
          exact hstep
      | some r =>
          obtain ⟨t, es⟩ := r
          obtain ⟨hIt, hμ⟩ := step s t es hI hstep
          exact ih t hIt (by omega)

end Machine

end EventMachine
