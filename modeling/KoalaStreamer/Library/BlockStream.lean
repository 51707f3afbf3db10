import Mathlib.Data.List.Basic
import Mathlib.Data.List.Infix

/-!
# A stream that arrives in pieces and leaves in blocks

Pieces are appended to a residue.  When the residue has reached the block size
it is handed out as a block, together with the piece that completed it.  Nothing
forces a piece to end where a block ends: `Fits` says that none goes past the
end, and `Aligned` says the same of the pieces alone.

Main results:
* `gather_stream`: the blocks and the residue are the stream;
* `fits_iff_aligned`: whether the pieces fit can be read off their lengths;
* `Fits.count`, `Fits.block_eq`, `Fits.completes`: fitting pieces give one block
  for each full size of the stream, cut from it in order, each completed by the
  piece that holds its last element.
-/

namespace BlockStream

universe u v

section Gather

variable {α : Type u} {β : Type v} (data : α → List β) (n : ℕ)

/-- The blocks handed out, with the pieces that completed them, and the rest. -/
structure Gathered (α : Type u) (β : Type v) where
  blocks : List (List β × α)
  residue : List β

/-- One piece more. -/
def Gathered.add (g : Gathered α β) (p : α) : Gathered α β :=
  if g.residue.length + (data p).length < n then
    { g with residue := g.residue ++ data p }
  else
    { blocks := g.blocks ++ [(g.residue ++ data p, p)], residue := [] }

def gather (ps : List α) : Gathered α β :=
  ps.foldl (Gathered.add data n) ⟨[], []⟩

/-- The elements of all pieces. -/
def stream (ps : List α) : List β :=
  ps.flatMap data

/-- `P` holds of every piece together with the pieces before it. -/
def EachPiece (P : List α → α → Prop) (ps : List α) : Prop :=
  ∀ before p, before ++ [p] <+: ps → P before p

/-- No piece goes past the end of its block. -/
def Fits : List α → Prop :=
  EachPiece fun before p =>
    (gather data n before).residue.length + (data p).length ≤ n

/-- No piece goes past the next multiple of the block size. -/
def Aligned : List α → Prop :=
  EachPiece fun before p =>
    (stream data before).length % n + (data p).length ≤ n

/-- The piece that holds the element at a position of the stream. -/
def holderAt : List α → ℕ → Option α
  | [], _ => none
  | p :: ps, i =>
      if i < (data p).length then some p
      else holderAt ps (i - (data p).length)

variable {data n} {ps : List α} {p : α}

theorem eachPiece_nil
    (P : List α → α → Prop) :
    EachPiece P [] := by
  intro before p hpre
  simp at hpre

theorem eachPiece_snoc_iff
    {P : List α → α → Prop} :
    EachPiece P (ps ++ [p]) ↔ EachPiece P ps ∧ P ps p := by
  constructor
  · intro h
    exact ⟨fun before q hpre => h before q (hpre.trans (List.prefix_append _ _)),
      h ps p (List.prefix_refl _)⟩
  · rintro ⟨h, hlast⟩ before q hpre
    rcases List.prefix_concat_iff.mp hpre with heq | hpre
    · obtain ⟨rfl, hq⟩ := List.append_inj' heq rfl
      obtain rfl := List.singleton_inj.mp hq
      exact hlast
    · exact h before q hpre

@[simp] theorem stream_nil :
    stream data [] = [] := by
  rfl

@[simp] theorem stream_snoc
    (ps : List α) (p : α) :
    stream data (ps ++ [p]) = stream data ps ++ data p := by
  simp [stream]

theorem gather_snoc
    (ps : List α) (p : α) :
    gather data n (ps ++ [p]) = (gather data n ps).add data n p := by
  simp [gather]

/-- Nothing is lost, repeated or reordered. -/
theorem gather_stream
    (ps : List α) :
    (gather data n ps).blocks.flatMap Prod.fst ++ (gather data n ps).residue =
      stream data ps := by
  induction ps using List.reverseRecOn with
  | nil =>
      rfl
  | append_singleton ps p ih =>
      rw [gather_snoc, stream_snoc, ← ih, Gathered.add]
      split <;> simp

/-- The residue is shorter than a block. -/
theorem residue_lt
    (hn : 0 < n) (ps : List α) :
    (gather data n ps).residue.length < n := by
  induction ps using List.reverseRecOn with
  | nil =>
      exact hn
  | append_singleton ps p ih =>
      rw [gather_snoc, Gathered.add]
      split
      · rename_i hlt
        rwa [List.length_append]
      · exact hn

theorem fits_snoc_iff :
    Fits data n (ps ++ [p]) ↔
      Fits data n ps ∧
      (gather data n ps).residue.length + (data p).length ≤ n :=
  eachPiece_snoc_iff

theorem aligned_snoc_iff :
    Aligned data n (ps ++ [p]) ↔
      Aligned data n ps ∧ (stream data ps).length % n + (data p).length ≤ n :=
  eachPiece_snoc_iff

/-- Pieces that fit give blocks of the full size. -/
theorem Fits.block_length
    (h : Fits data n ps) :
    ∀ b ∈ (gather data n ps).blocks, b.1.length = n := by
  induction ps using List.reverseRecOn with
  | nil =>
      intro b hb
      cases hb
  | append_singleton ps p ih =>
      obtain ⟨hfits, hlast⟩ := fits_snoc_iff.mp h
      rw [gather_snoc, Gathered.add]
      split
      · exact ih hfits
      · rename_i hfull
        intro b hb
        rcases List.mem_append.mp hb with hb | hb
        · exact ih hfits b hb
        · rw [List.mem_singleton.mp hb, List.length_append]
          omega

/-- The blocks fill a multiple of their size. -/
theorem Fits.blocks_length
    (h : Fits data n ps) :
    ((gather data n ps).blocks.flatMap Prod.fst).length =
      n * (gather data n ps).blocks.length := by
  have hblocks : ∀ bs : List (List β × α), (∀ b ∈ bs, b.1.length = n) →
      (bs.flatMap Prod.fst).length = n * bs.length := by
    intro bs
    induction bs with
    | nil =>
        simp
    | cons b bs ih =>
        intro hall
        rw [List.flatMap_cons, List.length_append, List.length_cons, Nat.mul_succ,
          hall b List.mem_cons_self,
          ih fun b' hb' => hall b' (List.mem_cons_of_mem _ hb'), Nat.add_comm]
  exact hblocks _ h.block_length

/-- The stream consists of full blocks and the residue. -/
theorem Fits.length
    (h : Fits data n ps) :
    (stream data ps).length =
      n * (gather data n ps).blocks.length + (gather data n ps).residue.length := by
  rw [← gather_stream (n := n) ps, List.length_append, h.blocks_length]

/-- The residue is what follows the blocks. -/
theorem Fits.residue_eq
    (h : Fits data n ps) :
    (gather data n ps).residue =
      (stream data ps).drop (n * (gather data n ps).blocks.length) := by
  rw [← gather_stream (n := n) ps, ← h.blocks_length, List.drop_left]

theorem Fits.residue_length
    (hn : 0 < n) (h : Fits data n ps) :
    (gather data n ps).residue.length = (stream data ps).length % n := by
  rw [h.length, Nat.mul_add_mod]
  exact (Nat.mod_eq_of_lt (residue_lt hn ps)).symm

/-- One block for each full block size of the stream. -/
theorem Fits.count
    (hn : 0 < n) (h : Fits data n ps) :
    (gather data n ps).blocks.length = (stream data ps).length / n := by
  rw [h.length, Nat.mul_add_div hn, Nat.div_eq_of_lt (residue_lt hn ps),
    Nat.add_zero]

/-- As long as the pieces fit, the residue starts at a multiple of the size. -/
theorem fits_iff_aligned
    (hn : 0 < n) (ps : List α) :
    Fits data n ps ↔ Aligned data n ps := by
  induction ps using List.reverseRecOn with
  | nil =>
      exact iff_of_true (eachPiece_nil _) (eachPiece_nil _)
  | append_singleton ps p ih =>
      rw [fits_snoc_iff, aligned_snoc_iff, ← ih]
      refine and_congr_right fun h => ?_
      rw [h.residue_length hn]

theorem holderAt_append
    (ps qs : List α) (i : ℕ) :
    holderAt data (ps ++ qs) i =
      if i < (stream data ps).length then holderAt data ps i
      else holderAt data qs (i - (stream data ps).length) := by
  induction ps generalizing i with
  | nil =>
      simp
  | cons p ps ih =>
      have hstream : (stream data (p :: ps)).length =
          (data p).length + (stream data ps).length := by
        simp [stream]
      rw [List.cons_append, holderAt, holderAt, ih, hstream]
      by_cases hi : i < (data p).length
      · rw [if_pos hi, if_pos (by omega), if_pos hi]
      · rw [if_neg hi, if_neg hi, Nat.sub_add_eq]
        congr 1
        rw [eq_iff_iff]
        omega

/-- Where the blocks come from: one more piece leaves the earlier blocks alone and
may complete one. -/
theorem getElem?_blocks_snoc
    {k : ℕ} {b : List β × α}
    (hk : (gather data n (ps ++ [p])).blocks[k]? = some b) :
    (gather data n ps).blocks[k]? = some b ∨
    (k = (gather data n ps).blocks.length ∧
      n ≤ (gather data n ps).residue.length + (data p).length ∧
      b = ((gather data n ps).residue ++ data p, p)) := by
  rw [gather_snoc, Gathered.add] at hk
  split at hk
  · exact Or.inl hk
  · rename_i hfull
    rw [List.getElem?_append] at hk
    split at hk
    · exact Or.inl hk
    · obtain ⟨hlt, hb⟩ := List.getElem?_eq_some_iff.mp hk
      rw [List.length_singleton] at hlt
      refine Or.inr ⟨by omega, by omega, ?_⟩
      rw [← hb]
      simp

/-- An earlier block lies inside the stream. -/
theorem Fits.block_le
    (h : Fits data n ps) {k : ℕ} {b : List β × α}
    (hk : (gather data n ps).blocks[k]? = some b) :
    n * k + n ≤ (stream data ps).length := by
  obtain ⟨hlt, -⟩ := List.getElem?_eq_some_iff.mp hk
  have hle := Nat.mul_le_mul_left n hlt
  rw [Nat.mul_succ] at hle
  rw [h.length]
  omega

/-- The blocks are cut from the stream one after the other. -/
theorem Fits.block_eq
    (h : Fits data n ps) {k : ℕ} {b : List β × α}
    (hk : (gather data n ps).blocks[k]? = some b) :
    b.1 = ((stream data ps).drop (n * k)).take n := by
  induction ps using List.reverseRecOn with
  | nil =>
      simp [gather] at hk
  | append_singleton ps p ih =>
      obtain ⟨hfits, hlast⟩ := fits_snoc_iff.mp h
      have hlength := hfits.length
      rw [stream_snoc]
      rcases getElem?_blocks_snoc hk with hk | ⟨rfl, hfull, rfl⟩
      · have hle := hfits.block_le hk
        rw [List.drop_append_of_le_length (by omega),
          List.take_append_of_le_length (by rw [List.length_drop]; omega)]
        exact ih hfits hk
      · rw [List.drop_append_of_le_length (by omega), ← hfits.residue_eq]
        refine (List.take_of_length_le ?_).symm
        rwa [List.length_append]

/-- A block is completed by the piece that holds its last element. -/
theorem Fits.completes
    (hn : 0 < n) (h : Fits data n ps) {k : ℕ} {b : List β × α}
    (hk : (gather data n ps).blocks[k]? = some b) :
    holderAt data ps (n * k + (n - 1)) = some b.2 := by
  induction ps using List.reverseRecOn with
  | nil =>
      simp [gather] at hk
  | append_singleton ps p ih =>
      obtain ⟨hfits, hlast⟩ := fits_snoc_iff.mp h
      have hlength := hfits.length
      rw [holderAt_append]
      rcases getElem?_blocks_snoc hk with hk | ⟨rfl, hfull, rfl⟩
      · have hle := hfits.block_le hk
        rw [if_pos (by omega)]
        exact ih hfits hk
      · -- the new block: its last element is the last one of the piece
        have hresidue : (gather data n ps).residue.length < n := residue_lt hn ps
        rw [if_neg (by omega), holderAt, if_pos (by omega)]

end Gather

end BlockStream
