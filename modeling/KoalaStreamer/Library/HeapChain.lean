import Mathlib.Data.List.Nodup
import Mathlib.Logic.Function.Basic

/-!
# Linked chains in a heap

A heap maps the addresses of the allocated blocks to what they hold.  A chain is
a sequence of cells, each of which links to the next one and owns some further
blocks.

Main results:
* `Chain.belongs_iff`: what can be reached from the start are the cells of the chain and
  the blocks that they own;
* `OwnedChain.push`, `OwnedChain.replace` and `OwnedChain.release`: a chain whose
  blocks are distinct and allocated remains one when a cell is put in front, when
  one is changed and when the first one is released with its blocks.
-/

namespace HeapChain

universe u

/-- Addresses; 0 is NULL. -/
abbrev Addr := ℕ

/-- What the allocated blocks hold. -/
abbrev Heap (C : Type u) := Addr → Option C

section Blocks

variable {C : Type u}

/-- The block at `a` is allocated and holds `c`. -/
def store (h : Heap C) (a : Addr) (c : C) : Heap C :=
  Function.update h a (some c)

/-- The block at `a` is no longer allocated. -/
def release (h : Heap C) (a : Addr) : Heap C :=
  Function.update h a none

/-- The blocks are released in order. -/
def releaseAll (h : Heap C) (as : List Addr) : Heap C :=
  as.foldl release h

/-- The allocator may answer NULL, or any address that is not allocated. -/
def allocate (h : Heap C) (a : Addr) (c : C) : Option (Heap C) :=
  if a = 0 then some h
  else if (h a).isNone then some (store h a c)
  else none

def Live (h : Heap C) (a : Addr) : Prop :=
  (h a).isSome

variable {h h' : Heap C} {a b : Addr} {c : C}

@[simp] theorem store_same :
    store h a c a = some c := by
  simp [store]

theorem store_other
    (hne : b ≠ a) :
    store h a c b = h b := by
  simp [store, hne]

@[simp] theorem release_same :
    release h a a = none := by
  simp [release]

theorem release_other
    (hne : b ≠ a) :
    release h a b = h b := by
  simp [release, hne]

theorem releaseAll_other
    {as : List Addr} (hnot : b ∉ as) :
    releaseAll h as b = h b := by
  induction as generalizing h with
  | nil =>
      rfl
  | cons a as ih =>
      rw [List.mem_cons, not_or] at hnot
      calc
        releaseAll h (a :: as) b = releaseAll (release h a) as b := rfl
        _ = release h a b := ih hnot.2
        _ = h b := release_other hnot.1

theorem releaseAll_append
    (as bs : List Addr) :
    releaseAll h (as ++ bs) = releaseAll (releaseAll h as) bs := by
  simp [releaseAll, List.foldl_append]

theorem Live.ne_of_none
    (hb : Live h b) (ha : h a = none) :
    b ≠ a := by
  rintro rfl
  simp [Live, ha] at hb

/-- What an allocation leaves. -/
theorem allocate_inv
    (halloc : allocate h a c = some h') :
    (a = 0 ∧ h' = h) ∨ (a ≠ 0 ∧ h a = none ∧ h' = store h a c) := by
  simp only [allocate] at halloc
  split at halloc
  · rename_i ha
    exact .inl ⟨ha, (Option.some.inj halloc).symm⟩
  · rename_i ha
    split at halloc
    · rename_i hnone
      exact .inr ⟨ha, Option.isNone_iff_eq_none.mp hnone, (Option.some.inj halloc).symm⟩
    · cases halloc

/-- An allocation changes nothing that is allocated. -/
theorem allocate_other
    (halloc : allocate h a c = some h') (hb : Live h b) :
    h' b = h b := by
  rcases allocate_inv halloc with ⟨-, rfl⟩ | ⟨-, hnone, rfl⟩
  · rfl
  · exact store_other (hb.ne_of_none hnone)

/-- What was allocated before is still there. -/
theorem Live.allocate
    (hb : Live h b) (halloc : allocate h a c = some h') :
    Live h' b := by
  rw [Live, allocate_other halloc hb]
  exact hb

theorem allocate_same
    (halloc : allocate h a c = some h') (ha : a ≠ 0) :
    h' a = some c := by
  rcases allocate_inv halloc with ⟨hzero, -⟩ | ⟨-, -, rfl⟩
  · exact absurd hzero ha
  · exact store_same

/-- The new block is none of those that are allocated. -/
theorem allocate_fresh
    (halloc : allocate h a c = some h') (ha : a ≠ 0) (hb : Live h b) :
    a ≠ b := by
  rcases allocate_inv halloc with ⟨hzero, -⟩ | ⟨-, hnone, -⟩
  · exact absurd hzero ha
  · exact (hb.ne_of_none hnone).symm

end Blocks

section Chains

variable {C : Type u} (link : C → Option Addr) (owns : C → List Addr)

/-- The links lead from the first address through the cells to NULL. -/
inductive Chain (h : Heap C) : Addr → List (Addr × C) → Prop
  | nil :
      Chain h 0 []
  | cons {p next : Addr} {c : C} {cells : List (Addr × C)}
      (hp : p ≠ 0)
      (hcell : h p = some c)
      (hlink : link c = some next)
      (rest : Chain h next cells) :
      Chain h p ((p, c) :: cells)

/-- `a` is a cell that can be reached from the first address, or a block that
such a cell owns. -/
inductive Belongs (h : Heap C) : Addr → Addr → Prop
  | cell {p : Addr} {c : C}
      (hp : p ≠ 0)
      (hcell : h p = some c) :
      Belongs h p p
  | owned {p a : Addr} {c : C}
      (hp : p ≠ 0)
      (hcell : h p = some c)
      (howns : a ∈ owns c) :
      Belongs h p a
  | next {p next a : Addr} {c : C}
      (hp : p ≠ 0)
      (hcell : h p = some c)
      (hlink : link c = some next)
      (rest : Belongs h next a) :
      Belongs h p a

/-- The cells and the blocks that they own. -/
def footprint (cells : List (Addr × C)) : List Addr :=
  cells.flatMap fun x => x.1 :: owns x.2

/-- A chain whose blocks are allocated and owned once. -/
structure OwnedChain (h : Heap C) (p : Addr) (cells : List (Addr × C)) : Prop where
  chain : Chain link h p cells
  nodup : (footprint owns cells).Nodup
  live : ∀ a ∈ footprint owns cells, Live h a

variable {link owns} {h h' : Heap C} {p next a : Addr} {c c' : C}
variable {cells l r : List (Addr × C)}

theorem footprint_cons
    (x : Addr × C) (cells : List (Addr × C)) :
    footprint owns (x :: cells) = x.1 :: owns x.2 ++ footprint owns cells := by
  rfl

theorem footprint_append
    (l r : List (Addr × C)) :
    footprint owns (l ++ r) = footprint owns l ++ footprint owns r := by
  simp [footprint]

theorem cell_mem_footprint
    {x : Addr × C} (hx : x ∈ cells) :
    x.1 ∈ footprint owns cells :=
  List.mem_flatMap.mpr ⟨x, hx, List.mem_cons_self⟩

theorem cells_sublist_footprint
    (cells : List (Addr × C)) :
    (cells.map (·.1)).Sublist (footprint owns cells) := by
  induction cells with
  | nil =>
      exact .refl _
  | cons x cells ih =>
      rw [footprint_cons, List.map_cons, List.cons_append]
      exact (ih.trans (List.sublist_append_right _ _)).cons_cons _

theorem Chain.cell
    (hchain : Chain link h p cells) {x : Addr × C} (hx : x ∈ cells) :
    h x.1 = some x.2 := by
  induction hchain with
  | nil =>
      cases hx
  | cons _ hcell _ _ ih =>
      rcases List.mem_cons.mp hx with rfl | hx
      · exact hcell
      · exact ih hx

theorem Chain.linked
    (hchain : Chain link h p cells) {x : Addr × C} (hx : x ∈ cells) :
    (link x.2).isSome := by
  induction hchain with
  | nil =>
      cases hx
  | cons _ _ hlink _ ih =>
      rcases List.mem_cons.mp hx with rfl | hx
      · simp [hlink]
      · exact ih hx

theorem Chain.ne_null
    (hchain : Chain link h p cells) {x : Addr × C} (hx : x ∈ cells) :
    x.1 ≠ 0 := by
  induction hchain with
  | nil =>
      cases hx
  | cons hp _ _ _ ih =>
      rcases List.mem_cons.mp hx with rfl | hx
      · exact hp
      · exact ih hx

theorem Chain.start
    (hchain : Chain link h p cells) (hp : p ≠ 0) :
    ∃ c rest, cells = (p, c) :: rest := by
  cases hchain with
  | nil => exact absurd rfl hp
  | cons _ _ _ _ => exact ⟨_, _, rfl⟩

theorem Chain.congr
    (hchain : Chain link h p cells) (hsame : ∀ x ∈ cells, h' x.1 = h x.1) :
    Chain link h' p cells := by
  induction hchain with
  | nil =>
      exact .nil
  | cons hp hcell hlink _ ih =>
      refine .cons hp ?_ hlink (ih fun x hx => hsame x (List.mem_cons_of_mem _ hx))
      rw [hsame _ List.mem_cons_self, hcell]

/-- One cell is changed, its link is not. -/
theorem Chain.replace
    (hchain : Chain link h p (l ++ (a, c) :: r))
    (hlink : link c' = link c) (hnew : h' a = some c')
    (hsame : ∀ x ∈ l ++ r, h' x.1 = h x.1) :
    Chain link h' p (l ++ (a, c') :: r) := by
  induction l generalizing p with
  | nil =>
      cases hchain with
      | cons hp _ hlink' rest =>
          exact .cons hp hnew (hlink.trans hlink') (rest.congr hsame)
  | cons x l ih =>
      cases hchain with
      | cons hp hcell hlink' rest =>
          refine .cons hp ?_ hlink'
            (ih rest fun x hx => hsame x (List.mem_cons_of_mem _ hx))
          rw [← hcell]
          exact hsame _ List.mem_cons_self

/-- What belongs to a chain is its footprint. -/
theorem Chain.belongs_iff
    (hchain : Chain link h p cells) :
    Belongs link owns h p a ↔ a ∈ footprint owns cells := by
  induction hchain with
  | nil =>
      constructor
      · rintro (⟨hp, -⟩ | ⟨hp, -, -⟩ | ⟨hp, -, -, -⟩) <;> exact absurd rfl hp
      · intro ha
        cases ha
  | cons hp hcell hlink _ ih =>
      rw [footprint_cons, List.mem_append, List.mem_cons]
      constructor
      · rintro (⟨-, -⟩ | ⟨-, hcell', howns⟩ | ⟨-, hcell', hlink', rest⟩)
        · exact .inl (.inl rfl)
        · obtain rfl := Option.some.inj (hcell.symm.trans hcell')
          exact .inl (.inr howns)
        · obtain rfl := Option.some.inj (hcell.symm.trans hcell')
          obtain rfl := Option.some.inj (hlink.symm.trans hlink')
          exact .inr (ih.mp rest)
      · rintro ((rfl | howns) | hrest)
        · exact .cell hp hcell
        · exact .owned hp hcell howns
        · exact .next hp hcell hlink (ih.mpr hrest)

theorem OwnedChain.congr
    (hown : OwnedChain link owns h p cells)
    (hsame : ∀ a ∈ footprint owns cells, h' a = h a) :
    OwnedChain link owns h' p cells where
  chain := hown.chain.congr fun _ hx => hsame _ (cell_mem_footprint hx)
  nodup := hown.nodup
  live := fun a ha => by
    rw [Live, hsame a ha]
    exact hown.live a ha

theorem OwnedChain.nil :
    OwnedChain link owns h 0 [] where
  chain := .nil
  nodup := List.nodup_nil
  live := fun a ha => by cases ha

/-- A new cell is put in front; nothing that the chain has is touched. -/
theorem OwnedChain.push
    (hown : OwnedChain link owns h p cells)
    (hsame : ∀ a ∈ footprint owns cells, h' a = h a)
    (ha : a ≠ 0) (hcell : h' a = some c) (hlink : link c = some p)
    (hnodup : (a :: owns c ++ footprint owns cells).Nodup)
    (hlive : ∀ b ∈ owns c, Live h' b) :
    OwnedChain link owns h' a ((a, c) :: cells) where
  chain := .cons ha hcell hlink (hown.congr hsame).chain
  nodup := hnodup
  live := fun b hb => by
    rw [footprint_cons, List.mem_append, List.mem_cons] at hb
    rcases hb with (rfl | hb) | hb
    · simp [Live, hcell]
    · exact hlive b hb
    · exact (hown.congr hsame).live b hb

/-- The blocks of a chain around one of its cells. -/
theorem footprint_split :
    (footprint owns (l ++ (a, c) :: r)).Perm
      (a :: owns c ++ footprint owns (l ++ r)) := by
  rw [footprint_append, footprint_cons, footprint_append]
  exact List.perm_append_comm_assoc _ _ _

/-- One cell is changed with what it owns; the others are not touched. -/
theorem OwnedChain.replace
    (hown : OwnedChain link owns h p (l ++ (a, c) :: r))
    (hlink : link c' = link c) (hcell : h' a = some c')
    (hsame : ∀ b ∈ footprint owns (l ++ r), h' b = h b)
    (hnodup : (a :: owns c' ++ footprint owns (l ++ r)).Nodup)
    (hlive : ∀ b ∈ owns c', Live h' b) :
    OwnedChain link owns h' p (l ++ (a, c') :: r) where
  chain := hown.chain.replace hlink hcell fun x hx => hsame _ (cell_mem_footprint hx)
  nodup := footprint_split.nodup_iff.mpr hnodup
  live := fun b hb => by
    rw [footprint_split.mem_iff, List.mem_append, List.mem_cons] at hb
    rcases hb with (rfl | hb) | hb
    · simp [Live, hcell]
    · exact hlive b hb
    · rw [Live, hsame b hb]
      exact hown.live b (footprint_split.mem_iff.mpr (List.mem_append_right _ hb))

/-- The first cell is released with the blocks that it owns. -/
theorem OwnedChain.release
    (hown : OwnedChain link owns h p ((p, c) :: cells)) (hlink : link c = some next) :
    OwnedChain link owns (releaseAll h (owns c ++ [p])) next cells := by
  have hnodup := hown.nodup
  rw [footprint_cons, List.nodup_append] at hnodup
  have hrest : OwnedChain link owns h next cells := by
    refine ⟨?_, hnodup.2.1, fun a ha => hown.live a (List.mem_append_right _ ha)⟩
    cases hown.chain with
    | cons _ _ hlink' rest =>
        obtain rfl := Option.some.inj (hlink.symm.trans hlink')
        exact rest
  refine hrest.congr fun a ha => releaseAll_other fun hmem => ?_
  rw [List.mem_append, List.mem_singleton, or_comm, ← List.mem_cons] at hmem
  exact hnodup.2.2 a hmem a ha rfl

end Chains

end HeapChain
