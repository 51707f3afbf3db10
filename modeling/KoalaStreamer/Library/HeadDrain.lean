import Mathlib.Data.List.Basic
import Mathlib.Logic.Function.Iterate

/-!
# Draining a list from its head

A drain looks at the head of a list and asks a stateful callback what to do: to
remove the head or to leave it, and to stop or to go on.  A callback that
neither removes nor stops is asked again about the same element.

Main results:
* `Drains.split`: what was removed is a prefix, what is left is the rest;
* `drains_iff`: it has an outcome if and only if there is no element at which
  the callback waits forever.
-/

namespace HeadDrain

universe u v

section Drain

variable {σ : Type u} {T : Type v}

/-- What a callback orders for the head. -/
structure Verdict where
  remove : Bool
  stop : Bool
deriving DecidableEq, Repr

/-- A stateful callback. -/
abbrev Ask (σ : Type u) (T : Type v) := σ → T → Verdict × σ

/-- From state `a` the drain removes `rs` from the list, leaves the rest and
ends in state `b`. -/
inductive Drains (ask : Ask σ T) : σ → List T → List T → List T → σ → Prop
  | empty (a : σ) :
      Drains ask a [] [] [] a
  | stop {a b : σ} {x : T} {xs : List T}
      (hask : ask a x = (⟨false, true⟩, b)) :
      Drains ask a (x :: xs) [] (x :: xs) b
  | removeStop {a b : σ} {x : T} {xs : List T}
      (hask : ask a x = (⟨true, true⟩, b)) :
      Drains ask a (x :: xs) [x] xs b
  | remove {a b c : σ} {x : T} {xs rs ys : List T}
      (hask : ask a x = (⟨true, false⟩, b))
      (rest : Drains ask b xs rs ys c) :
      Drains ask a (x :: xs) (x :: rs) ys c
  | wait {a b c : σ} {x : T} {xs rs ys : List T}
      (hask : ask a x = (⟨false, false⟩, b))
      (rest : Drains ask b (x :: xs) rs ys c) :
      Drains ask a (x :: xs) rs ys c

/-- The drain comes to ask about the element `y` in state `b`. -/
inductive Asks (ask : Ask σ T) : σ → List T → σ → T → Prop
  | head (a : σ) (x : T) (xs : List T) :
      Asks ask a (x :: xs) a x
  | remove {a b c : σ} {x y : T} {xs : List T}
      (hask : ask a x = (⟨true, false⟩, b))
      (rest : Asks ask b xs c y) :
      Asks ask a (x :: xs) c y
  | wait {a b c : σ} {x y : T} {xs : List T}
      (hask : ask a x = (⟨false, false⟩, b))
      (rest : Asks ask b (x :: xs) c y) :
      Asks ask a (x :: xs) c y

/-- The state after `k` questions about the same element. -/
def stateAfter (ask : Ask σ T) (x : T) (k : ℕ) (a : σ) : σ :=
  (fun s => (ask s x).2)^[k] a

/-- Every one of the questions about `x` is answered without an order. -/
def WaitsForever (ask : Ask σ T) (a : σ) (x : T) : Prop :=
  ∀ k, (ask (stateAfter ask x k a) x).1 = ⟨false, false⟩

theorem stateAfter_succ
    (ask : Ask σ T) (x : T) (k : ℕ) (a : σ) :
    stateAfter ask x (k + 1) a = stateAfter ask x k (ask a x).2 := by
  rfl

variable {ask : Ask σ T} {a b : σ} {x : T} {xs rs ys : List T}

/-- What was removed is a prefix and what is left is the rest, in order. -/
theorem Drains.split
    (h : Drains ask a xs rs ys b) :
    rs ++ ys = xs := by
  induction h with
  | empty a =>
      rfl
  | stop hask =>
      rfl
  | removeStop hask =>
      rfl
  | remove hask rest ih =>
      rw [List.cons_append, ih]
  | wait hask rest ih =>
      exact ih

/-- Whoever answers with an order does not wait forever. -/
theorem not_waitsForever_of_order
    {v : Verdict}
    (hask : ask a x = (v, b)) (hv : v ≠ ⟨false, false⟩) :
    ¬ WaitsForever ask a x := by
  intro hwaits
  have hnow := hwaits 0
  simp only [stateAfter, Function.iterate_zero, id_eq, hask] at hnow
  exact hv hnow

/-- Whoever waits forever still does after the next question. -/
theorem WaitsForever.next
    (h : WaitsForever ask a x) (hask : ask a x = (⟨false, false⟩, b)) :
    WaitsForever ask b x := by
  intro k
  have hlater := h (k + 1)
  rw [stateAfter_succ, hask] at hlater
  exact hlater

/-- A drain with an outcome asks about no element forever. -/
theorem Drains.not_waitsForever
    {y : T} {c : σ}
    (h : Drains ask a xs rs ys b)
    (hasks : Asks ask a xs c y) :
    ¬ WaitsForever ask c y := by
  induction h generalizing c with
  | empty a =>
      cases hasks
  | stop hask =>
      cases hasks with
      | head =>
          exact not_waitsForever_of_order hask (by decide)
      | _ =>
          simp_all
  | removeStop hask =>
      cases hasks with
      | head =>
          exact not_waitsForever_of_order hask (by decide)
      | _ =>
          simp_all
  | remove hask rest ih =>
      cases hasks with
      | head =>
          exact not_waitsForever_of_order hask (by decide)
      | remove hask' rest' =>
          rw [hask] at hask'
          cases hask'
          exact ih rest'
      | wait hask' rest' =>
          simp_all
  | wait hask rest ih =>
      cases hasks with
      | head =>
          intro hwaits
          exact ih (Asks.head _ _ _) (hwaits.next hask)
      | remove hask' rest' =>
          simp_all
      | wait hask' rest' =>
          rw [hask] at hask'
          cases hask'
          exact ih rest'

/-- If the head is answered with an order, the drain has an outcome as soon as
the drain of the tail has. -/
theorem exists_drains_of_order
    (horder : (ask a x).1 ≠ ⟨false, false⟩)
    (htail : ∀ b, ask a x = (⟨true, false⟩, b) →
      ∃ rs ys c, Drains ask b xs rs ys c) :
    ∃ rs ys b, Drains ask a (x :: xs) rs ys b := by
  cases hask : ask a x with
  | mk v b =>
      obtain ⟨remove, stop⟩ := v
      cases remove with
      | true =>
          cases stop with
          | true =>
              exact ⟨_, _, _, Drains.removeStop hask⟩
          | false =>
              obtain ⟨rs, ys, c, hrest⟩ := htail b hask
              exact ⟨_, _, _, Drains.remove hask hrest⟩
      | false =>
          cases stop with
          | true =>
              exact ⟨_, _, _, Drains.stop hask⟩
          | false =>
              rw [hask] at horder
              exact absurd rfl horder

/-- The same when the order comes after `k` more questions about the head. -/
theorem exists_drains_of_later_order
    (k : ℕ) (a : σ)
    (horder : (ask (stateAfter ask x k a) x).1 ≠ ⟨false, false⟩)
    (hends : ∀ c y, Asks ask a (x :: xs) c y → ¬ WaitsForever ask c y)
    (htail : ∀ b, (∀ c y, Asks ask b xs c y → ¬ WaitsForever ask c y) →
      ∃ rs ys c, Drains ask b xs rs ys c) :
    ∃ rs ys b, Drains ask a (x :: xs) rs ys b := by
  induction k generalizing a with
  | zero =>
      refine exists_drains_of_order horder ?_
      intro b hask
      exact htail b fun c y hasks => hends c y (Asks.remove hask hasks)
  | succ k ih =>
      by_cases hnow : (ask a x).1 = ⟨false, false⟩
      · have hask : ask a x = (⟨false, false⟩, (ask a x).2) := Prod.ext hnow rfl
        obtain ⟨rs, ys, b, hrest⟩ := ih (ask a x).2 horder
          fun c y hasks => hends c y (Asks.wait hask hasks)
        exact ⟨rs, ys, b, Drains.wait hask hrest⟩
      · refine exists_drains_of_order hnow ?_
        intro b hask
        exact htail b fun c y hasks => hends c y (Asks.remove hask hasks)

/-- A drain that asks about no element forever has an outcome. -/
theorem exists_drains
    (xs : List T) (a : σ)
    (hends : ∀ c y, Asks ask a xs c y → ¬ WaitsForever ask c y) :
    ∃ rs ys b, Drains ask a xs rs ys b := by
  induction xs generalizing a with
  | nil =>
      exact ⟨[], [], a, Drains.empty a⟩
  | cons x xs ih =>
      have hhead := hends a x (Asks.head a x xs)
      obtain ⟨k, hk⟩ := not_forall.mp hhead
      exact exists_drains_of_later_order k a hk hends ih

/-- A drain has an outcome exactly if it asks about no element forever. -/
theorem drains_iff :
    (∃ rs ys b, Drains ask a xs rs ys b) ↔
      ¬ ∃ c y, Asks ask a xs c y ∧ WaitsForever ask c y := by
  constructor
  · rintro ⟨rs, ys, b, h⟩ ⟨c, y, hasks, hwaits⟩
    exact h.not_waitsForever hasks hwaits
  · intro h
    exact exists_drains xs a fun c y hasks hwaits => h ⟨c, y, hasks, hwaits⟩

/-- A callback that removes at every question drains everything. -/
theorem drains_all
    (hask : ∀ x, ask a x = (⟨true, false⟩, a)) (xs : List T) :
    Drains ask a xs xs [] a := by
  induction xs with
  | nil =>
      exact Drains.empty a
  | cons x xs ih =>
      exact Drains.remove (hask x) ih

end Drain

end HeadDrain
