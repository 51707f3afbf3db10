import KoalaStreamer.Library.EventMachine
import KoalaStreamer.Library.HeapChain
import KoalaStreamer.MediaMuxer

/-!
# MediaMuxer/MediaMuxer.c: the option list in the heap

The list is a chain of nodes, each with a block for its key and one for its value.
`releaseOpts` frees a node and reads its link afterwards.

Main results:
* `run_optHeapInv`: after any calls of `setOpt` the blocks of the list are allocated
  and distinct;
* `run_shows`: the heap holds the options that `setOpt` on a list leaves;
* `release_sound_iff`: `releaseOpts` reads allocated nodes only if and only if there
  are none; as long as freed memory keeps what it held, it frees every block once.
-/

namespace KoalaStreamer

open CStrings DataRefinement EventMachine HeapChain

/-- `OptNode_`. -/
structure OptFields where
  key : Addr
  value : Addr
  next : Addr
deriving DecidableEq, Repr

/-- A block of the heap. -/
inductive OptBlock
  | node (fields : OptFields)
  /-- A copy that `strdup` has made. -/
  | string (s : CString)
deriving DecidableEq, Repr

/-- `opt->next`. -/
def OptBlock.next : OptBlock → Option Addr
  | .node fields => some fields.next
  | .string _ => none

/-- The key and the value of a node; `strdup` may have failed. -/
def OptBlock.owns : OptBlock → List Addr
  | .node fields => [fields.key, fields.value].filter (· ≠ 0)
  | .string _ => []

/-- The heap and `*opts`. -/
structure OptHeap where
  blocks : Heap OptBlock
  opts : Addr
  /-- The nodes that `malloc` has given; no search is longer. -/
  nodes : ℕ

/-- A call of `setOpt` and what `malloc`, `strdup(key)` and `strdup(value)` answer. -/
structure SetOptCall where
  key : CString
  value : CString
  node : Addr
  keyCopy : Addr
  valueCopy : Addr
deriving DecidableEq, Repr

section SetOpt

/-- No option is set. -/
def emptyOptHeap : OptHeap where
  blocks := fun _ => none
  opts := 0
  nodes := 0

def stringAt (h : Heap OptBlock) (a : Addr) : Option CString :=
  match h a with
  | some (.string s) => some s
  | _ => none

def fieldsAt (h : Heap OptBlock) (a : Addr) : Option OptFields :=
  match h a with
  | some (.node fields) => some fields
  | _ => none

/-- `getOpt`.  There is no result when the key of a node that is looked at is NULL:
`strcasecmp` would read it. -/
def OptHeap.getOpt (h : Heap OptBlock) (key : CString) : ℕ → Addr → Option Addr
  | 0, _ => none
  | fuel + 1, opt =>
      if opt = 0 then some 0
      else
        (fieldsAt h opt).bind fun fields =>
          (stringAt h fields.key).bind fun optKey =>
            if strcasecmp key optKey = 0 then some opt
            else OptHeap.getOpt h key fuel fields.next

/-- `if (p) free(p)`. -/
def freeIf (h : Heap OptBlock) (p : Addr) : Heap OptBlock :=
  if p = 0 then h else release h p

/-- `setOpt`, the key is new: the node is put in front. -/
def OptHeap.addNode (s : OptHeap) (c : SetOptCall) : Option OptHeap :=
  (allocate s.blocks c.node (.node ⟨c.keyCopy, c.valueCopy, s.opts⟩)).bind fun h =>
    (allocate h c.keyCopy (.string c.key)).bind fun h =>
      (allocate h c.valueCopy (.string c.value)).map fun h =>
        { blocks := h, opts := c.node, nodes := s.nodes + 1 }

/-- `setOpt`, the key is there: its value is freed and replaced. -/
def OptHeap.setValue
    (s : OptHeap) (opt : Addr) (fields : OptFields) (c : SetOptCall) : Option OptHeap :=
  (allocate (freeIf s.blocks fields.value) c.valueCopy (.string c.value)).map fun h =>
    { s with blocks := store h opt (.node { fields with value := c.valueCopy }) }

/-- `setOpt`. -/
def OptHeap.setOpt : Machine OptHeap SetOptCall Int := fun s c =>
  (OptHeap.getOpt s.blocks c.key (s.nodes + 1) s.opts).bind fun opt =>
    if opt = 0 then
      if c.node = 0 then some (s, [-1])
      else (s.addNode c).map fun s' => (s', [0])
    else
      (fieldsAt s.blocks opt).bind fun fields =>
        (s.setValue opt fields c).map fun s' => (s', [0])

end SetOpt

section ReleaseOpts

inductive ReleaseEvent
  /-- A field of the node is read; `live` tells whether the node is allocated. -/
  | read (opt : Addr) (live : Bool)
  | free (p : Addr)
deriving DecidableEq, Repr

/-- What is read from the fields of `opt`; from memory that is not allocated it can
be anything. -/
def readFields
    (h : Heap OptBlock) (stale : Addr → OptFields) (opt : Addr) : OptFields :=
  (fieldsAt h opt).getD (stale opt)

def readEvent (h : Heap OptBlock) (opt : Addr) : ReleaseEvent :=
  .read opt (h opt).isSome

/-- `if (opt->field) free(opt->field)`. -/
def freeField (h : Heap OptBlock) (opt field : Addr) : List ReleaseEvent :=
  if field = 0 then [readEvent h opt]
  else [readEvent h opt, readEvent h opt, .free field]

/-- `releaseOpts`; `stale i` is what memory that is not allocated shows in the
`i`-th round. -/
def releaseOpts (stale : ℕ → Addr → OptFields) :
    ℕ → ℕ → Heap OptBlock → Addr → Option (Heap OptBlock × List ReleaseEvent)
  | 0, _, _, _ => none
  | fuel + 1, i, h, opt =>
      if opt = 0 then some (h, [])
      else
        let key := (readFields h (stale i) opt).key
        let h₁ := freeIf h key
        let value := (readFields h₁ (stale i) opt).value
        let h₂ := freeIf h₁ value
        let h₃ := release h₂ opt
        -- `opt = tmp->next`, and `tmp` has just been freed
        let next := (readFields h₃ (stale i) opt).next
        (releaseOpts stale fuel (i + 1) h₃ next).map fun rest =>
          (rest.1,
            freeField h opt key ++ freeField h₁ opt value ++
              [.free opt, readEvent h₃ opt] ++ rest.2)

/-- What is to hold of `releaseOpts`. -/
structure SoundRelease (s : OptHeap) (log : List ReleaseEvent) : Prop where
  freedOnce : ∀ a, Belongs OptBlock.next OptBlock.owns s.blocks s.opts a →
    log.count (.free a) = 1
  readsLive : ∀ opt live, .read opt live ∈ log → live = true

/-- `releaseOpts` comes to its end and has done so. -/
def ReleasesSoundly (stale : ℕ → Addr → OptFields) (s : OptHeap) : Prop :=
  ∃ fuel h log, releaseOpts stale fuel 0 s.blocks s.opts = some (h, log) ∧
    SoundRelease s log

end ReleaseOpts

/-! ## The list that the calls build -/

section List

variable {h h' : Heap OptBlock} {fields : OptFields} {p opt a b : Addr}
variable {cells : List (Addr × OptBlock)} {s s' : OptHeap} {c : SetOptCall}

/-- The nodes of the list, their keys and their values are distinct blocks. -/
structure OptHeapInv (s : OptHeap) (cells : List (Addr × OptBlock)) : Prop where
  owned : OwnedChain OptBlock.next OptBlock.owns s.blocks s.opts cells
  null : s.blocks 0 = none
  bounded : cells.length ≤ s.nodes

theorem mem_owns :
    a ∈ OptBlock.owns (.node fields) ↔ (a = fields.key ∨ a = fields.value) ∧ a ≠ 0 := by
  simp [OptBlock.owns]

/-- A node with its key and its value apart from other blocks. -/
theorem nodup_node_iff
    {rest : List Addr} :
    (opt :: OptBlock.owns (.node fields) ++ rest).Nodup ↔
      opt ∉ rest ∧ rest.Nodup ∧
      (fields.key ≠ 0 → fields.key ≠ opt ∧ fields.key ∉ rest) ∧
      (fields.value ≠ 0 → fields.value ≠ opt ∧ fields.value ∉ rest ∧
        (fields.key ≠ 0 → fields.value ≠ fields.key)) := by
  by_cases hkey : fields.key = 0 <;> by_cases hvalue : fields.value = 0 <;>
    simp [OptBlock.owns, hkey, hvalue, not_or] <;> grind

theorem fieldsAt_iff :
    fieldsAt h a = some fields ↔ h a = some (.node fields) := by
  cases ha : h a with
  | none =>
      simp [fieldsAt, ha]
  | some block =>
      cases block <;> simp [fieldsAt, ha]

theorem freeIf_other
    (hne : b ≠ p) :
    freeIf h p b = h b := by
  simp only [freeIf]
  split
  · rfl
  · exact release_other hne

theorem freeIf_same
    (hnull : h 0 = none) :
    freeIf h p p = none := by
  simp only [freeIf]
  split
  · rename_i hp
    rw [hp, hnull]
  · exact release_same

/-- `getOpt` gives NULL or a node of the list. -/
theorem getOpt_found
    {key : CString} {fuel : ℕ} (hchain : Chain OptBlock.next h p cells)
    (hget : OptHeap.getOpt h key fuel p = some opt) (hopt : opt ≠ 0) :
    ∃ l fields r, cells = l ++ (opt, .node fields) :: r := by
  induction hchain generalizing fuel with
  | nil =>
      cases fuel with
      | zero =>
          cases hget
      | succ fuel =>
          simp only [OptHeap.getOpt, ↓reduceIte, Option.some.injEq] at hget
          exact absurd hget.symm hopt
  | @cons p next block cells hp hcell hlink _ ih =>
      cases fuel with
      | zero =>
          cases hget
      | succ fuel =>
          rw [OptHeap.getOpt, if_neg hp, Option.bind_eq_some_iff] at hget
          obtain ⟨fields, hfields, hget⟩ := hget
          obtain rfl := Option.some.inj (hcell.symm.trans (fieldsAt_iff.mp hfields))
          obtain rfl : fields.next = next := Option.some.inj hlink
          rw [Option.bind_eq_some_iff] at hget
          obtain ⟨optKey, -, hget⟩ := hget
          split at hget
          · obtain rfl := Option.some.inj hget
            exact ⟨[], fields, cells, rfl⟩
          · obtain ⟨l, fields', r, rfl⟩ := ih hget
            exact ⟨(p, .node fields) :: l, fields', r, rfl⟩

/-- How a call of `setOpt` ends. -/
inductive SetOptCase (s : OptHeap) (c : SetOptCall) : OptHeap → List Int → Prop
  | full
      (hget : OptHeap.getOpt s.blocks c.key (s.nodes + 1) s.opts = some 0)
      (hnode : c.node = 0) :
      SetOptCase s c s [-1]
  | added {s' : OptHeap}
      (hget : OptHeap.getOpt s.blocks c.key (s.nodes + 1) s.opts = some 0)
      (hnode : c.node ≠ 0)
      (hadd : s.addNode c = some s') :
      SetOptCase s c s' [0]
  | replaced {opt : Addr} {fields : OptFields} {s' : OptHeap}
      (hget : OptHeap.getOpt s.blocks c.key (s.nodes + 1) s.opts = some opt)
      (hopt : opt ≠ 0)
      (hfields : s.blocks opt = some (.node fields))
      (hset : s.setValue opt fields c = some s') :
      SetOptCase s c s' [0]

theorem setOpt_case
    {es : List Int} (hstep : s.setOpt c = some (s', es)) :
    SetOptCase s c s' es := by
  rw [OptHeap.setOpt, Option.bind_eq_some_iff] at hstep
  obtain ⟨opt, hget, hstep⟩ := hstep
  split at hstep
  · rename_i hopt
    rw [hopt] at hget
    split at hstep
    · rename_i hnode
      obtain ⟨rfl, rfl⟩ := Prod.mk.inj (Option.some.inj hstep)
      exact .full hget hnode
    · rename_i hnode
      obtain ⟨s₁, hadd, heq⟩ := Option.map_eq_some_iff.mp hstep
      obtain ⟨rfl, rfl⟩ := Prod.mk.inj heq
      exact .added hget hnode hadd
  · rename_i hopt
    obtain ⟨fields, hfields, hstep⟩ := Option.bind_eq_some_iff.mp hstep
    obtain ⟨s₁, hset, heq⟩ := Option.map_eq_some_iff.mp hstep
    obtain ⟨rfl, rfl⟩ := Prod.mk.inj heq
    exact .replaced hget hopt (fieldsAt_iff.mp hfields) hset

/-- The three allocations of a new node. -/
theorem addNode_inv
    (hadd : s.addNode c = some s') :
    ∃ h₁ h₂, allocate s.blocks c.node (.node ⟨c.keyCopy, c.valueCopy, s.opts⟩) = some h₁ ∧
      allocate h₁ c.keyCopy (.string c.key) = some h₂ ∧
      allocate h₂ c.valueCopy (.string c.value) = some s'.blocks ∧
      s'.opts = c.node ∧ s'.nodes = s.nodes + 1 := by
  rw [OptHeap.addNode, Option.bind_eq_some_iff] at hadd
  obtain ⟨h₁, hnode, hadd⟩ := hadd
  rw [Option.bind_eq_some_iff] at hadd
  obtain ⟨h₂, hkey, hadd⟩ := hadd
  rw [Option.map_eq_some_iff] at hadd
  obtain ⟨h₃, hvalue, rfl⟩ := hadd
  exact ⟨h₁, h₂, hnode, hkey, hvalue, rfl, rfl⟩

/-- The one allocation of a new value. -/
theorem setValue_inv
    (hset : s.setValue opt fields c = some s') :
    ∃ h, allocate (freeIf s.blocks fields.value) c.valueCopy (.string c.value) = some h ∧
      s'.blocks = store h opt (.node { fields with value := c.valueCopy }) ∧
      s'.opts = s.opts ∧ s'.nodes = s.nodes := by
  rw [OptHeap.setValue, Option.map_eq_some_iff] at hset
  obtain ⟨h, halloc, rfl⟩ := hset
  exact ⟨h, halloc, rfl, rfl, rfl⟩

theorem OptHeapInv.ne_null
    (inv : OptHeapInv s cells) (ha : Live s.blocks a) :
    a ≠ 0 :=
  ha.ne_of_none inv.null

theorem allocate_null
    {block : OptBlock} (halloc : allocate h a block = some h') :
    h' 0 = h 0 := by
  rcases allocate_inv halloc with ⟨-, rfl⟩ | ⟨ha, -, rfl⟩
  · rfl
  · exact store_other ha.symm

theorem addNode_same
    (hadd : s.addNode c = some s') (ha : Live s.blocks a) :
    s'.blocks a = s.blocks a := by
  obtain ⟨h₁, h₂, hnew, hkey, hvalue, -⟩ := addNode_inv hadd
  have ha₁ := ha.allocate hnew
  rw [allocate_other hvalue (ha₁.allocate hkey), allocate_other hkey ha₁,
    allocate_other hnew ha]

theorem addNode_null
    (hadd : s.addNode c = some s') :
    s'.blocks 0 = s.blocks 0 := by
  obtain ⟨h₁, h₂, hnew, hkey, hvalue, -⟩ := addNode_inv hadd
  rw [allocate_null hvalue, allocate_null hkey, allocate_null hnew]

/-- A new node is put in front of the list. -/
theorem addNode_inv_list
    (inv : OptHeapInv s cells) (hnode : c.node ≠ 0) (hadd : s.addNode c = some s') :
    OptHeapInv s' ((c.node, .node ⟨c.keyCopy, c.valueCopy, s.opts⟩) :: cells) := by
  obtain ⟨h₁, h₂, hnew, hkey, hvalue, hopts, hnodes⟩ := addNode_inv hadd
  have hlive := inv.owned.live
  have hcell₁ := allocate_same hnew hnode
  have hlive₁ : Live h₁ c.node := by simp [Live, hcell₁]
  have hcell : s'.blocks c.node = h₁ c.node := by
    rw [allocate_other hvalue (hlive₁.allocate hkey), allocate_other hkey hlive₁]
  refine ⟨?_, ?_, ?_⟩
  · rw [hopts]
    refine inv.owned.push (fun a ha => addNode_same hadd (hlive a ha)) hnode
      (hcell.trans hcell₁) rfl ?_ ?_
    · rw [nodup_node_iff]
      refine ⟨?_, inv.owned.nodup, ?_, ?_⟩
      · exact fun hmem => allocate_fresh hnew hnode (hlive _ hmem) rfl
      · intro hne
        refine ⟨allocate_fresh hkey hne hlive₁, fun hmem => ?_⟩
        exact allocate_fresh hkey hne ((hlive _ hmem).allocate hnew) rfl
      · intro hne
        refine ⟨allocate_fresh hvalue hne (hlive₁.allocate hkey), fun hmem => ?_, ?_⟩
        · exact allocate_fresh hvalue hne
            (((hlive _ hmem).allocate hnew).allocate hkey) rfl
        · intro hkeyNe
          refine allocate_fresh hvalue hne ?_
          simp [Live, allocate_same hkey hkeyNe]
    · intro a ha
      obtain ⟨rfl | rfl, hne⟩ := mem_owns.mp ha
      · have hlive₂ : Live h₂ c.keyCopy := by simp [Live, allocate_same hkey hne]
        exact hlive₂.allocate hvalue
      · simp [Live, allocate_same hvalue hne]
  · rw [addNode_null hadd]
    exact inv.null
  · rw [hnodes, List.length_cons]
    exact Nat.succ_le_succ inv.bounded

/-- The blocks of the list that remain when the value of a node is freed. -/
structure ValueFreed (h : Heap OptBlock) (opt : Addr) (fields : OptFields)
    (rest : List Addr) : Prop where
  node : opt ∉ rest
  nodup : rest.Nodup
  key : fields.key ≠ 0 → fields.key ≠ opt ∧ fields.key ∉ rest
  nodeLive : Live (freeIf h fields.value) opt
  keyKept : fields.key ≠ 0 →
    fields.key ≠ fields.value ∧ Live (freeIf h fields.value) fields.key
  restKept : ∀ a ∈ rest, a ≠ fields.value ∧ Live (freeIf h fields.value) a

theorem OptHeapInv.valueFreed
    {l r : List (Addr × OptBlock)} (inv : OptHeapInv s (l ++ (opt, .node fields) :: r)) :
    ValueFreed s.blocks opt fields (footprint OptBlock.owns (l ++ r)) := by
  have hlive : ∀ a ∈ opt :: OptBlock.owns (.node fields) ++
      footprint OptBlock.owns (l ++ r), Live s.blocks a := fun a ha =>
    inv.owned.live a (footprint_split.mem_iff.mpr ha)
  obtain ⟨hopt, hrest, hkey, hvalue⟩ :=
    nodup_node_iff.mp (footprint_split.nodup_iff.mp inv.owned.nodup)
  have hkept : ∀ a, Live s.blocks a → (fields.value ≠ 0 → a ≠ fields.value) →
      a ≠ fields.value ∧ Live (freeIf s.blocks fields.value) a := by
    intro a ha hapart
    have hne : a ≠ fields.value := by
      rintro rfl
      exact hapart (inv.ne_null ha) rfl
    exact ⟨hne, by rwa [Live, freeIf_other hne]⟩
  refine ⟨hopt, hrest, hkey, ?_, fun hne => ?_, fun a ha => ?_⟩
  · exact (hkept opt (hlive opt List.mem_cons_self) fun hne => (hvalue hne).1.symm).2
  · have hmem : fields.key ∈ OptBlock.owns (.node fields) := mem_owns.mpr ⟨.inl rfl, hne⟩
    refine hkept _ (hlive _ ?_) fun hvalueNe => ((hvalue hvalueNe).2.2 hne).symm
    exact List.mem_append_left _ (List.mem_cons_of_mem _ hmem)
  · refine hkept a (hlive a (List.mem_append_right _ ha)) fun hne heq => ?_
    exact (hvalue hne).2.1 (heq ▸ ha)

theorem OptHeapInv.node_ne_null
    {l r : List (Addr × OptBlock)} (inv : OptHeapInv s (l ++ (opt, .node fields) :: r)) :
    opt ≠ 0 :=
  inv.owned.chain.ne_null (List.mem_append_right l List.mem_cons_self)

theorem setValue_same
    (hset : s.setValue opt fields c = some s') (hnode : a ≠ opt)
    (hvalue : a ≠ fields.value) (ha : Live (freeIf s.blocks fields.value) a) :
    s'.blocks a = s.blocks a := by
  obtain ⟨h, halloc, hblocks, -⟩ := setValue_inv hset
  rw [hblocks, store_other hnode, allocate_other halloc ha, freeIf_other hvalue]

theorem setValue_null
    (hnull : s.blocks 0 = none) (hopt : opt ≠ 0)
    (hset : s.setValue opt fields c = some s') :
    s'.blocks 0 = none := by
  obtain ⟨h, halloc, hblocks, -⟩ := setValue_inv hset
  rw [hblocks, store_other hopt.symm, allocate_null halloc]
  by_cases hvalue : fields.value = 0
  · rw [hvalue, freeIf_same hnull]
  · rw [freeIf_other (Ne.symm hvalue), hnull]

/-- Nothing of the other nodes is touched. -/
theorem setValue_rest
    {rest : List Addr} (hfreed : ValueFreed s.blocks opt fields rest)
    (hset : s.setValue opt fields c = some s') (ha : a ∈ rest) :
    s'.blocks a = s.blocks a :=
  setValue_same hset (fun heq => hfreed.node (heq ▸ ha)) (hfreed.restKept a ha).1
    (hfreed.restKept a ha).2

/-- The value of a node is freed and replaced. -/
theorem setValue_inv_list
    {l r : List (Addr × OptBlock)}
    (inv : OptHeapInv s (l ++ (opt, .node fields) :: r))
    (hset : s.setValue opt fields c = some s') :
    OptHeapInv s'
      (l ++ (opt, .node { fields with value := c.valueCopy }) :: r) := by
  obtain ⟨h, halloc, hblocks, hopts, hnodes⟩ := setValue_inv hset
  have hfreed := inv.valueFreed
  refine ⟨?_, setValue_null inv.null inv.node_ne_null hset, ?_⟩
  · rw [hopts]
    refine inv.owned.replace rfl (hblocks ▸ store_same)
      (fun a ha => setValue_rest hfreed hset ha) ?_ ?_
    · rw [nodup_node_iff]
      refine ⟨hfreed.node, hfreed.nodup, hfreed.key,
        fun hne => ⟨?_, fun hmem => ?_, fun hkeyNe => ?_⟩⟩
      · exact allocate_fresh halloc hne hfreed.nodeLive
      · exact allocate_fresh halloc hne (hfreed.restKept _ hmem).2 rfl
      · exact allocate_fresh halloc hne (hfreed.keyKept hkeyNe).2
    · intro a ha
      obtain ⟨heq | heq, hne⟩ := mem_owns.mp ha
      · obtain rfl : a = fields.key := heq
        rw [Live, hblocks, store_other (hfreed.key hne).1]
        exact (hfreed.keyKept hne).2.allocate halloc
      · obtain rfl : a = c.valueCopy := heq
        rw [Live, hblocks, store_other (allocate_fresh halloc hne hfreed.nodeLive),
          allocate_same halloc hne]
        rfl
  · have hlength := inv.bounded
    rw [hnodes]
    simp only [List.length_append, List.length_cons] at hlength ⊢
    exact hlength

/-- Every list that calls of `setOpt` build is a chain of distinct blocks. -/
theorem run_optHeapInv
    {tr : List (Transition OptHeap SetOptCall Int)}
    (run : Run OptHeap.setOpt emptyOptHeap tr s) :
    ∃ cells, OptHeapInv s cells := by
  refine run.invariant (fun _ s => ∃ cells, OptHeapInv s cells) ?_ ?_
  · exact ⟨[], .nil, rfl, Nat.le_refl 0⟩
  · rintro tr s c es s' ⟨cells, inv⟩ hstep
    cases setOpt_case hstep with
    | full _ _ =>
        exact ⟨cells, inv⟩
    | added _ hnode hadd =>
        exact ⟨_, addNode_inv_list inv hnode hadd⟩
    | replaced hget hopt hfields hset =>
        obtain ⟨l, fields, r, rfl⟩ := getOpt_found inv.owned.chain hget hopt
        have hcell := inv.owned.chain.cell (List.mem_append_right l List.mem_cons_self)
        obtain rfl := OptBlock.node.inj (Option.some.inj (hfields.symm.trans hcell))
        exact ⟨_, setValue_inv_list inv hset⟩

end List

/-! ## The options of the list -/

section Options

variable {h h' : Heap OptBlock} {p : Addr}
variable {cells : List (Addr × OptBlock)} {s s' : OptHeap} {c : SetOptCall}
variable {opts : List (OptNode (Option CString))}

/-- What `strdup(value)` gives. -/
def SetOptCall.copied (c : SetOptCall) : Option CString :=
  if c.valueCopy = 0 then none else some c.value

/-- `setOpt` on the list of the options. -/
def setOptSpec : Spec (List (OptNode (Option CString))) SetOptCall Int :=
  fun opts c => setOpt opts c.key c.copied (c.node ≠ 0)

/-- The node holds the option, and its key is not NULL. -/
def Shows (h : Heap OptBlock) (x : Addr × OptBlock) (opt : OptNode (Option CString)) :
    Prop :=
  ∃ fields, x.2 = .node fields ∧ stringAt h fields.key = some opt.key ∧
    stringAt h fields.value = opt.value

theorem stringAt_congr
    {a : Addr} (hsame : h' a = h a) :
    stringAt h' a = stringAt h a := by
  rw [stringAt, hsame, stringAt]

theorem Shows.congr
    {x : Addr × OptBlock} {opt : OptNode (Option CString)}
    (hshows : Shows h x opt) (hsame : ∀ a ∈ x.2.owns, h' a = h a) (hnull : h' 0 = h 0) :
    Shows h' x opt := by
  obtain ⟨fields, hfields, hkey, hvalue⟩ := hshows
  have hfield : ∀ a, a = fields.key ∨ a = fields.value → h' a = h a := by
    intro a ha
    by_cases hzero : a = 0
    · rw [hzero, hnull]
    · rw [hfields] at hsame
      exact hsame a (mem_owns.mpr ⟨ha, hzero⟩)
  exact ⟨fields, hfields, (stringAt_congr (hfield _ (.inl rfl))).trans hkey,
    (stringAt_congr (hfield _ (.inr rfl))).trans hvalue⟩

/-- Nodes of which nothing has changed hold the same options. -/
theorem shows_congr
    (hshows : List.Forall₂ (Shows h) cells opts)
    (hsame : ∀ a ∈ footprint OptBlock.owns cells, h' a = h a) (hnull : h' 0 = h 0) :
    List.Forall₂ (Shows h') cells opts := by
  induction hshows with
  | nil =>
      exact .nil
  | cons hshow _ ih =>
      rw [footprint_cons] at hsame
      refine .cons (hshow.congr (fun a ha => hsame a ?_) hnull) (ih fun a ha => hsame a ?_)
      · exact List.mem_append_left _ (List.mem_cons_of_mem _ ha)
      · exact List.mem_append_right _ ha

/-- `getOpt` finds the node of the option that `getOpt` finds in the list of the
options. -/
theorem getOpt_shows
    (key : CString) {fuel : ℕ} (hchain : Chain OptBlock.next h p cells)
    (hshows : List.Forall₂ (Shows h) cells opts) (hfuel : cells.length < fuel) :
    (OptHeap.getOpt h key fuel p = some 0 ∧ getOpt opts key = none) ∨
    ∃ a l block r ls opt rs, OptHeap.getOpt h key fuel p = some a ∧
      cells = l ++ (a, block) :: r ∧ getOpt opts key = some opt ∧
      (∀ value : Option CString,
        updateOpt opts key value = ls ++ { opt with value := value } :: rs) ∧
      List.Forall₂ (Shows h) l ls ∧ Shows h (a, block) opt ∧
      List.Forall₂ (Shows h) r rs := by
  induction hchain generalizing opts fuel with
  | nil =>
      obtain ⟨fuel, rfl⟩ := Nat.exists_eq_succ_of_ne_zero (Nat.ne_of_gt hfuel)
      cases hshows
      exact .inl ⟨rfl, rfl⟩
  | @cons p next block cells hp hcell hlink _ ih =>
      obtain ⟨fuel, rfl⟩ := Nat.exists_eq_succ_of_ne_zero (Nat.ne_of_gt
        (Nat.zero_lt_of_lt hfuel))
      cases hshows with
      | @cons _ opt _ opts hshow hrest =>
          obtain ⟨fields, hblock, hkey, hvalue⟩ := hshow
          obtain rfl : block = .node fields := hblock
          obtain rfl : fields.next = next := Option.some.inj hlink
          have hget : OptHeap.getOpt h key (fuel + 1) p =
              if strcasecmp key opt.key = 0 then some p
              else OptHeap.getOpt h key fuel fields.next := by
            rw [OptHeap.getOpt, if_neg hp, fieldsAt_iff.mpr hcell, Option.bind_some, hkey,
              Option.bind_some]
          have hshow : Shows h (p, .node fields) opt := ⟨fields, rfl, hkey, hvalue⟩
          rw [hget]
          by_cases hcmp : strcasecmp key opt.key = 0
          · refine .inr ⟨p, [], _, cells, [], opt, opts, if_pos hcmp, rfl, ?_, ?_, .nil,
              hshow, hrest⟩
            · simp [getOpt, hcmp]
            · intro value
              rw [updateOpt, if_pos hcmp]
              rfl
          · have hskip : getOpt (opt :: opts) key = getOpt opts key := by
              simp [getOpt, hcmp]
            rw [if_neg hcmp, hskip]
            rcases ih hrest (Nat.lt_of_succ_lt_succ hfuel) with hnone | hfound
            · exact .inl hnone
            · obtain ⟨a, l, block', r, ls, opt', rs, hget', rfl, hopt, hupdate, hleft, hnode,
                hright⟩ := hfound
              refine .inr ⟨a, (p, .node fields) :: l, block', r, opt :: ls, opt', rs, hget',
                rfl, hopt, fun value => ?_, .cons hshow hleft, hnode, hright⟩
              rw [updateOpt, if_neg hcmp, hupdate value]
              rfl

theorem stringAt_copy
    (hnull : h 0 = none)
    (hcopy : c.valueCopy ≠ 0 → h c.valueCopy = some (.string c.value)) :
    stringAt h c.valueCopy = c.copied := by
  rw [SetOptCall.copied]
  split
  · rename_i hzero
    simp [hzero, stringAt, hnull]
  · rename_i hne
    simp [stringAt, hcopy hne]

/-- A new node holds the new option. -/
theorem addNode_shows
    (inv : OptHeapInv s cells) (hshows : List.Forall₂ (Shows s.blocks) cells opts)
    (hkeyCopy : c.keyCopy ≠ 0) (hadd : s.addNode c = some s') :
    List.Forall₂ (Shows s'.blocks)
      ((c.node, .node ⟨c.keyCopy, c.valueCopy, s.opts⟩) :: cells)
      (⟨c.key, c.copied⟩ :: opts) := by
  obtain ⟨h₁, h₂, -, hkey, hvalue, -⟩ := addNode_inv hadd
  have hnull := addNode_null hadd
  have hcopy := allocate_same hkey hkeyCopy
  have hlive : Live h₂ c.keyCopy := by simp [Live, hcopy]
  refine .cons ⟨_, rfl, ?_, ?_⟩
    (shows_congr hshows (fun a ha => addNode_same hadd (inv.owned.live a ha)) hnull)
  · simp [stringAt, allocate_other hvalue hlive, hcopy]
  · exact stringAt_copy (hnull.trans inv.null) fun hne => allocate_same hvalue hne

/-- The node of a replaced value holds the option with the new value. -/
theorem setValue_shows
    {l r : List (Addr × OptBlock)} {ls rs : List (OptNode (Option CString))}
    {a : Addr} {fields : OptFields} {opt : OptNode (Option CString)}
    (inv : OptHeapInv s (l ++ (a, .node fields) :: r))
    (hleft : List.Forall₂ (Shows s.blocks) l ls)
    (hnode : Shows s.blocks (a, .node fields) opt)
    (hright : List.Forall₂ (Shows s.blocks) r rs)
    (hset : s.setValue a fields c = some s') :
    List.Forall₂ (Shows s'.blocks)
      (l ++ (a, .node { fields with value := c.valueCopy }) :: r)
      (ls ++ { opt with value := c.copied } :: rs) := by
  have hfreed := inv.valueFreed
  have hnull := setValue_null inv.null inv.node_ne_null hset
  have hzero : s'.blocks 0 = s.blocks 0 := hnull.trans inv.null.symm
  have hsame : ∀ b ∈ footprint OptBlock.owns (l ++ r), s'.blocks b = s.blocks b :=
    fun b hb => setValue_rest hfreed hset hb
  rw [footprint_append] at hsame
  refine List.rel_append (shows_congr hleft (fun b hb => hsame b ?_) hzero)
    (.cons ?_ (shows_congr hright (fun b hb => hsame b ?_) hzero))
  · exact List.mem_append_left _ hb
  · obtain ⟨fields', heq, hkey, -⟩ := hnode
    obtain rfl : fields = fields' := OptBlock.node.inj heq
    have hkeyNe : fields.key ≠ 0 := by
      intro hkeyZero
      simp [hkeyZero, stringAt, inv.null] at hkey
    have hkept := hfreed.keyKept hkeyNe
    refine ⟨_, rfl, ?_, ?_⟩
    · rw [← hkey]
      exact stringAt_congr (setValue_same hset (hfreed.key hkeyNe).1 hkept.1 hkept.2)
    · obtain ⟨h, halloc, hblocks, -⟩ := setValue_inv hset
      refine stringAt_copy hnull fun hne => ?_
      rw [hblocks, store_other (allocate_fresh halloc hne hfreed.nodeLive)]
      exact allocate_same halloc hne
  · exact List.mem_append_right _ hb

/-- A call of `setOpt` in the heap does what it does to the list of the options. -/
theorem setOpt_shows
    {es : List Int}
    (inv : OptHeapInv s cells) (hshows : List.Forall₂ (Shows s.blocks) cells opts)
    (hkeyCopy : c.keyCopy ≠ 0) (hstep : s.setOpt c = some (s', es)) :
    es = [(setOptSpec opts c).1] ∧
    ∃ cells', OptHeapInv s' cells' ∧
      List.Forall₂ (Shows s'.blocks) cells' (setOptSpec opts c).2 := by
  have hfound := getOpt_shows c.key inv.owned.chain hshows
    (Nat.lt_succ_of_le inv.bounded)
  rcases hfound with ⟨hget, hnone⟩ | ⟨a, l, block, r, ls, opt, rs, hget, rfl, hopt, hupdate,
    hleft, hnode, hright⟩
  · cases setOpt_case hstep with
    | full _ hfull =>
        have hspec : setOptSpec opts c = (-1, opts) := by
          simp [setOptSpec, setOpt, hnone, hfull]
        rw [hspec]
        exact ⟨rfl, cells, inv, hshows⟩
    | added _ hnew hadd =>
        have hspec : setOptSpec opts c = (0, ⟨c.key, c.copied⟩ :: opts) := by
          simp [setOptSpec, setOpt, hnone, hnew]
        rw [hspec]
        exact ⟨rfl, _, addNode_inv_list inv hnew hadd,
          addNode_shows inv hshows hkeyCopy hadd⟩
    | replaced hget' hne _ _ =>
        exact absurd (Option.some.inj (hget'.symm.trans hget)) hne
  · obtain ⟨fields, rfl, -⟩ := id hnode
    have hne := inv.node_ne_null
    have hspec : setOptSpec opts c = (0, ls ++ { opt with value := c.copied } :: rs) := by
      simp only [setOptSpec, setOpt, hopt, hupdate]
    rw [hspec]
    cases setOpt_case hstep with
    | full hget' _ =>
        exact absurd (Option.some.inj (hget.symm.trans hget')) hne
    | added hget' _ _ =>
        exact absurd (Option.some.inj (hget.symm.trans hget')) hne
    | replaced hget' _ hfields hset =>
        obtain rfl := Option.some.inj (hget.symm.trans hget')
        have hcell := inv.owned.chain.cell (List.mem_append_right l List.mem_cons_self)
        obtain rfl := OptBlock.node.inj (Option.some.inj (hfields.symm.trans hcell))
        exact ⟨rfl, _, setValue_inv_list inv hset,
          setValue_shows inv hleft hnode hright hset⟩

/-- As long as `strdup` copies the keys, the heap holds the options that the calls of
`setOpt` leave. -/
theorem run_shows
    {tr : List (Transition OptHeap SetOptCall Int)}
    (run : Run OptHeap.setOpt emptyOptHeap tr s)
    (hkeys : ∀ τ ∈ tr, τ.action.keyCopy ≠ 0) :
    ∃ cells, OptHeapInv s cells ∧
      List.Forall₂ (Shows s.blocks) cells (specAll setOptSpec [] (tr.map (·.action))).2 := by
  refine run.invariant_of (fun τ => τ.action.keyCopy ≠ 0)
    (fun tr s => ∃ cells, OptHeapInv s cells ∧ List.Forall₂ (Shows s.blocks) cells
      (specAll setOptSpec [] (tr.map (·.action))).2) ?_ ?_ hkeys
  · exact ⟨[], ⟨.nil, rfl, Nat.le_refl 0⟩, .nil⟩
  · rintro tr s c es s' ⟨cells, inv, hshows⟩ hstep hkeyCopy
    obtain ⟨-, cells', inv', hshows'⟩ := setOpt_shows inv hshows hkeyCopy hstep
    refine ⟨cells', inv', ?_⟩
    rw [List.map_append, List.map_singleton, specAll_snoc]
    exact hshows'

end Options

/-! ## Releasing the list -/

section Release

variable {h : Heap OptBlock} {fields : OptFields} {p opt a : Addr} {fuel i : ℕ}
variable {cells : List (Addr × OptBlock)} {s : OptHeap}
variable {stale : ℕ → Addr → OptFields}

/-- `if (opt->field) free(opt->field)` on an allocated node. -/
def fieldLog (opt field : Addr) : List ReleaseEvent :=
  if field = 0 then [.read opt true]
  else [.read opt true, .read opt true, .free field]

/-- A round of `releaseOpts` on an allocated node; it ends with the read of its
link. -/
def nodeLog (opt : Addr) (fields : OptFields) : List ReleaseEvent :=
  fieldLog opt fields.key ++ fieldLog opt fields.value ++ [.free opt, .read opt false]

theorem freeField_live
    {field : Addr} (hlive : Live h opt) :
    freeField h opt field = fieldLog opt field := by
  have hevent : readEvent h opt = .read opt true := by rw [readEvent, hlive]
  rw [freeField, fieldLog, hevent]

theorem release_node
    (h : Heap OptBlock) (opt : Addr) (fields : OptFields) :
    release (freeIf (freeIf h fields.key) fields.value) opt =
      releaseAll h (OptBlock.owns (.node fields) ++ [opt]) := by
  by_cases hkey : fields.key = 0 <;> by_cases hvalue : fields.value = 0 <;>
    simp [freeIf, OptBlock.owns, releaseAll, hkey, hvalue]

/-- A round on an allocated node goes on with whatever the freed node shows. -/
theorem releaseOpts_round
    (hopt : opt ≠ 0) (hnode : h opt = some (.node fields))
    (hkey : opt ≠ fields.key) :
    releaseOpts stale (fuel + 1) i h opt =
      (releaseOpts stale fuel (i + 1)
        (releaseAll h (OptBlock.owns (.node fields) ++ [opt]))
        (stale i opt).next).map fun rest => (rest.1, nodeLog opt fields ++ rest.2) := by
  have hread : ∀ h' : Heap OptBlock, h' opt = h opt →
      readFields h' (stale i) opt = fields := by
    intro h' hsame
    rw [readFields, fieldsAt_iff.mpr (hsame.trans hnode), Option.getD_some]
  have hsame : freeIf h fields.key opt = h opt := freeIf_other hkey
  have hlive : Live h opt := by simp [Live, hnode]
  have hlive₁ : Live (freeIf h fields.key) opt := by rwa [Live, hsame]
  have hfreed : releaseAll h (OptBlock.owns (.node fields) ++ [opt]) opt = none := by
    rw [← release_node, release_same]
  have hstale : readFields (releaseAll h (OptBlock.owns (.node fields) ++ [opt]))
      (stale i) opt = stale i opt := by
    simp [readFields, fieldsAt, hfreed]
  simp only [releaseOpts, if_neg hopt, hread h rfl, hread _ hsame, release_node,
    freeField_live hlive, freeField_live hlive₁, hstale, nodeLog]
  simp [readEvent, hfreed]

/-- The first node of a list. -/
theorem OptHeapInv.first
    (inv : OptHeapInv s cells) (hopts : s.opts ≠ 0) :
    ∃ fields rest, cells = (s.opts, .node fields) :: rest ∧
      s.blocks s.opts = some (.node fields) ∧ s.opts ≠ fields.key := by
  obtain ⟨block, rest, rfl⟩ := inv.owned.chain.start hopts
  cases block with
  | string _ =>
      have hlinked := inv.owned.chain.linked List.mem_cons_self
      cases hlinked
  | node fields =>
      have hnodup := inv.owned.nodup
      rw [footprint_cons, nodup_node_iff] at hnodup
      refine ⟨fields, rest, rfl, inv.owned.chain.cell List.mem_cons_self, fun heq => ?_⟩
      exact (hnodup.2.2.1 (heq ▸ hopts)).1 heq.symm

/-- A list with a node is not released soundly, whatever freed memory shows. -/
theorem not_sound_of_node
    (inv : OptHeapInv s cells) (hopts : s.opts ≠ 0) :
    ¬ReleasesSoundly stale s := by
  rintro ⟨fuel, h, log, hrelease, hsound⟩
  obtain ⟨fields, rest, -, hnode, hkey⟩ := inv.first hopts
  cases fuel with
  | zero =>
      cases hrelease
  | succ fuel =>
      rw [releaseOpts_round hopts hnode hkey] at hrelease
      obtain ⟨after, -, heq⟩ := Option.map_eq_some_iff.mp hrelease
      obtain ⟨-, rfl⟩ := Prod.mk.inj heq
      have hlink := hsound.readsLive s.opts false (by simp [nodeLog])
      cases hlink

/-- With nothing in the list there is nothing to do. -/
theorem sound_of_empty
    (hopts : s.opts = 0) :
    ReleasesSoundly stale s := by
  refine ⟨1, s.blocks, [], by simp [releaseOpts, hopts], ?_, ?_⟩
  · rw [hopts]
    rintro a (⟨hp, -⟩ | ⟨hp, -, -⟩ | ⟨hp, -, -, -⟩) <;> exact absurd rfl hp
  · intro opt live hmem
    cases hmem

/-- As long as freed memory keeps what it held, every node is reached. -/
theorem releaseOpts_kept
    {kept : Addr → OptFields}
    (hown : OwnedChain OptBlock.next OptBlock.owns h p cells)
    (hkept : ∀ x ∈ cells, x.2 = .node (kept x.1))
    (hfuel : cells.length < fuel) :
    releaseOpts (fun _ => kept) fuel i h p =
      some (releaseAll h (cells.flatMap fun x => x.2.owns ++ [x.1]),
        cells.flatMap fun x => nodeLog x.1 (kept x.1)) := by
  induction cells generalizing h p fuel i with
  | nil =>
      obtain ⟨fuel, rfl⟩ := Nat.exists_eq_succ_of_ne_zero (Nat.ne_of_gt hfuel)
      obtain rfl : p = 0 := by
        cases hown.chain
        rfl
      simp [releaseOpts, releaseAll]
  | cons x cells ih =>
      obtain ⟨fuel, rfl⟩ := Nat.exists_eq_succ_of_ne_zero (Nat.ne_of_gt
        (Nat.zero_lt_of_lt hfuel))
      obtain ⟨a, block⟩ := x
      obtain rfl : block = .node (kept a) := hkept (a, block) List.mem_cons_self
      have hnodup := hown.nodup
      rw [footprint_cons, nodup_node_iff] at hnodup
      cases hown.chain with
      | cons hp hcell hlink rest =>
          have hrest := ih (i := i + 1) (hown.release rfl)
            (fun y hy => hkept y (List.mem_cons_of_mem _ hy)) (Nat.lt_of_succ_lt_succ hfuel)
          have hkey : p ≠ (kept p).key := fun heq =>
            (hnodup.2.2.1 (heq ▸ hp)).1 heq.symm
          rw [releaseOpts_round hp hcell hkey, hrest, Option.map_some, List.flatMap_cons,
            List.flatMap_cons, releaseAll_append (_ ++ _)]

theorem count_free_nodeLog
    (opt : Addr) (fields : OptFields) :
    (nodeLog opt fields).count (.free a) =
      (opt :: OptBlock.owns (.node fields)).count a := by
  by_cases hkey : fields.key = 0 <;> by_cases hvalue : fields.value = 0 <;>
    simp [nodeLog, fieldLog, OptBlock.owns, hkey, hvalue, List.count_cons] <;> omega

theorem count_stale_nodeLog
    (opt : Addr) (fields : OptFields) :
    (nodeLog opt fields).count (.read a false) = [opt].count a := by
  by_cases hkey : fields.key = 0 <;> by_cases hvalue : fields.value = 0 <;>
    simp [nodeLog, fieldLog, hkey, hvalue, List.count_cons]

/-- Each block of the list is freed as often as the list has it. -/
theorem count_free_log
    {kept : Addr → OptFields} (hkept : ∀ x ∈ cells, x.2 = .node (kept x.1)) :
    (cells.flatMap fun x => nodeLog x.1 (kept x.1)).count (.free a) =
      (footprint OptBlock.owns cells).count a := by
  induction cells with
  | nil =>
      rfl
  | cons x cells ih =>
      rw [List.flatMap_cons, List.count_append, footprint_cons, List.count_append,
        count_free_nodeLog, hkept x List.mem_cons_self,
        ih fun y hy => hkept y (List.mem_cons_of_mem _ hy)]

/-- Each node is read once after it was freed. -/
theorem count_stale_log
    (cells : List (Addr × OptBlock)) (kept : Addr → OptFields) :
    (cells.flatMap fun x => nodeLog x.1 (kept x.1)).count (.read a false) =
      (cells.map (·.1)).count a := by
  induction cells with
  | nil =>
      rfl
  | cons x cells ih =>
      rw [List.flatMap_cons, List.count_append, count_stale_nodeLog, ih, List.map_cons,
        ← List.count_append, List.singleton_append]

/-- What the nodes hold when `releaseOpts` is called. -/
def OptHeap.held (s : OptHeap) (a : Addr) : OptFields :=
  readFields s.blocks (fun _ => ⟨0, 0, 0⟩) a

theorem OptHeapInv.held_node
    (inv : OptHeapInv s cells) :
    ∀ x ∈ cells, x.2 = .node (s.held x.1) := by
  rintro ⟨opt, block⟩ hx
  have hcell := inv.owned.chain.cell hx
  cases block with
  | string _ =>
      have hlinked := inv.owned.chain.linked hx
      cases hlinked
  | node fields =>
      rw [OptHeap.held, readFields, fieldsAt_iff.mpr hcell, Option.getD_some]

/-- What is left of it while freed memory keeps what it held. -/
structure KeptRelease (s : OptHeap) (log : List ReleaseEvent) : Prop where
  freedOnce : ∀ a, Belongs OptBlock.next OptBlock.owns s.blocks s.opts a →
    log.count (.free a) = 1
  staleOnce : ∀ opt, .read opt false ∈ log → log.count (.read opt false) = 1

/-- Every block is freed once, and each node is read once after that. -/
theorem kept_release
    (inv : OptHeapInv s cells) :
    ∃ fuel h log, releaseOpts (fun _ => s.held) fuel 0 s.blocks s.opts = some (h, log) ∧
      KeptRelease s log := by
  have hrelease := releaseOpts_kept (i := 0) inv.owned inv.held_node
    (Nat.lt_succ_self cells.length)
  refine ⟨_, _, _, hrelease, ?_, ?_⟩
  · intro a ha
    rw [count_free_log inv.held_node]
    exact List.count_eq_one_of_mem inv.owned.nodup (inv.owned.chain.belongs_iff.mp ha)
  · intro opt hmem
    have hcount := List.count_pos_iff.mpr hmem
    rw [count_stale_log] at hcount ⊢
    exact List.count_eq_one_of_mem
      (inv.owned.nodup.sublist (cells_sublist_footprint cells)) (List.count_pos_iff.mp hcount)

end Release

/--
`releaseOpts` is sound, whatever freed memory shows, if and only if the list is
empty.  While freed memory keeps what it held, it frees each block once.
-/
theorem release_sound_iff
    {tr : List (Transition OptHeap SetOptCall Int)} {s : OptHeap}
    (run : Run OptHeap.setOpt emptyOptHeap tr s) :
    (∀ stale, ReleasesSoundly stale s ↔ s.opts = 0) ∧
    ∃ fuel h log, releaseOpts (fun _ => s.held) fuel 0 s.blocks s.opts = some (h, log) ∧
      KeptRelease s log := by
  obtain ⟨cells, inv⟩ := run_optHeapInv run
  refine ⟨fun stale => ⟨fun hsound => ?_, sound_of_empty⟩, kept_release inv⟩
  by_contra hopts
  exact not_sound_of_node inv hopts hsound

/-- Two options; the first value is replaced, and `strdup` reuses its block. -/
theorem release_sound_iff_replaced :
    ∃ tr s, Run OptHeap.setOpt emptyOptHeap tr s ∧
      tr.map (·.action) =
        [⟨ofLiteral "a", ofLiteral "b", 1, 2, 3⟩, ⟨ofLiteral "c", ofLiteral "d", 4, 5, 6⟩,
          ⟨ofLiteral "A", ofLiteral "e", 0, 0, 3⟩] ∧
      ∃ fuel h log, releaseOpts (fun _ => s.held) fuel 0 s.blocks s.opts = some (h, log) ∧
        KeptRelease s log := by
  have run := Run.of_exec
    (show exec OptHeap.setOpt emptyOptHeap
        [⟨ofLiteral "a", ofLiteral "b", 1, 2, 3⟩, ⟨ofLiteral "c", ofLiteral "d", 4, 5, 6⟩,
          ⟨ofLiteral "A", ofLiteral "e", 0, 0, 3⟩] = some (_, _) from rfl)
  exact ⟨_, _, run, rfl, (release_sound_iff run).2⟩

/-- One option: its node is freed and then read. -/
theorem release_sound_fails_one :
    ∃ tr s, Run OptHeap.setOpt emptyOptHeap tr s ∧
      tr.map (·.action) = [⟨ofLiteral "a", ofLiteral "b", 1, 2, 3⟩] ∧
      ∀ stale, ¬ReleasesSoundly stale s := by
  have run := Run.of_exec
    (show exec OptHeap.setOpt emptyOptHeap [⟨ofLiteral "a", ofLiteral "b", 1, 2, 3⟩] =
      some (_, _) from rfl)
  obtain ⟨cells, inv⟩ := run_optHeapInv run
  exact ⟨_, _, run, rfl, fun stale => not_sound_of_node inv (by decide)⟩

end KoalaStreamer
