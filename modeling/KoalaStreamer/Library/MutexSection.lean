import Mathlib.Data.Nat.Notation
import Mathlib.Logic.Function.Basic

/-!
# Mutexes, their sections and their order

Threads stand at places.  A mutex is held from some places and not from others; `Guards`
says that its owner is the thread that stands at one of them, so that there is one at most.
A step that moves one thread keeps this when it takes the mutex, gives it back, or does
neither.

When the mutexes are ordered and a thread only waits for one above those it holds, the
thread at the end of a chain of waiting threads waits for nobody.

Main results:
* `Guards.alone`: two threads are not in the section of one mutex;
* `exists_ready`: ordered mutexes do not deadlock.
-/

namespace MutexSection

universe u v w

variable {ι : Type u} {P : Type v} {M : Type w}

/-- The owner of a mutex is the thread that stands at a place from which it is held. -/
def Guards
    (inside : P → Prop) (owner : Option ι) (place : ι → P) : Prop :=
  ∀ t, owner = some t ↔ inside (place t)

section Section

variable {inside : P → Prop} {owner : Option ι} {place : ι → P} {t t' : ι} {p : P}

theorem Guards.outside
    (h : Guards inside none place) (t : ι) : ¬ inside (place t) :=
  fun ht => absurd ((h t).mpr ht) (by simp)

theorem Guards.alone
    (h : Guards inside owner place) (ht : inside (place t)) (ht' : inside (place t')) :
    t = t' :=
  Option.some.inj (((h t).mpr ht).symm.trans ((h t').mpr ht'))

variable [DecidableEq ι]

/-- A thread locks a free mutex. -/
theorem Guards.acquire
    (h : Guards inside none place) (hp : inside p) :
    Guards inside (some t) (Function.update place t p) := by
  intro t'
  by_cases ht : t' = t
  · subst ht
    rw [Function.update_self]
    exact ⟨fun _ => hp, fun _ => rfl⟩
  · rw [Function.update_of_ne ht]
    exact ⟨fun hsome => absurd (Option.some.inj hsome).symm ht,
      fun hinside => absurd hinside (h.outside t')⟩

/-- A thread unlocks the mutex it holds. -/
theorem Guards.release
    (h : Guards inside owner place) (ht : inside (place t)) (hp : ¬ inside p) :
    Guards inside none (Function.update place t p) := by
  intro t'
  by_cases htt' : t' = t
  · subst htt'
    rw [Function.update_self]
    exact ⟨fun hnone => absurd hnone (by simp), fun hinside => absurd hinside hp⟩
  · rw [Function.update_of_ne htt']
    exact ⟨fun hnone => absurd hnone (by simp),
      fun hinside => absurd (h.alone hinside ht) htt'⟩

/-- A thread stays in the section, or stays out of it. -/
theorem Guards.moves
    (h : Guards inside owner place) (hp : inside p ↔ inside (place t)) :
    Guards inside owner (Function.update place t p) := by
  intro t'
  by_cases ht : t' = t
  · subst ht
    rw [Function.update_self, hp]
    exact h t'
  · rw [Function.update_of_ne ht]
    exact h t'

end Section

section Order

/--
Ordered mutexes do not deadlock.  Whatever thread one starts from, it or the owner of a
mutex waits for no mutex that is taken.
-/
theorem exists_ready
    {rank : M → ℕ} {bound : ℕ} (hbound : ∀ m, rank m < bound)
    {owner : M → Option ι} {needs : ι → Option M}
    (hordered : ∀ t m m', owner m = some t → needs t = some m' → rank m < rank m')
    (t : ι) :
    ∃ t', (t' = t ∨ ∃ m, owner m = some t') ∧ ∀ m, needs t' = some m → owner m = none := by
  -- the induction goes up the order, along the chain of owners
  have hchain : ∀ n t, (∀ m, needs t = some m → bound ≤ rank m + n) →
      ∃ t', (t' = t ∨ ∃ m, owner m = some t') ∧
        ∀ m, needs t' = some m → owner m = none := by
    intro n
    induction n with
    | zero =>
        intro t hle
        refine ⟨t, Or.inl rfl, fun m hm => ?_⟩
        exact absurd (hle m hm) (Nat.not_le_of_lt (hbound m))
    | succ n ih =>
        intro t hle
        cases hneeds : needs t with
        | none =>
            exact ⟨t, Or.inl rfl, fun m hm => by rw [hneeds] at hm; cases hm⟩
        | some m =>
            cases howner : owner m with
            | none =>
                refine ⟨t, Or.inl rfl, fun m' hm' => ?_⟩
                obtain rfl := Option.some.inj (hneeds.symm.trans hm')
                exact howner
            | some t₁ =>
                obtain ⟨t', ht', hready⟩ := ih t₁ fun m' hm' => by
                  have hlt := hordered t₁ m m' howner hm'
                  have hm := hle m hneeds
                  omega
                refine ⟨t', Or.inr ?_, hready⟩
                rcases ht' with rfl | howns
                · exact ⟨m, howner⟩
                · exact howns
  exact hchain bound t fun m _ => Nat.le_add_left _ _

end Order

end MutexSection
