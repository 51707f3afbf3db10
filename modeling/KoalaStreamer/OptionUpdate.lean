import KoalaStreamer.MediaStreamer
import Mathlib.Data.List.GetD
import Mathlib.Data.List.Nodup

/-!
# MediaMuxer.c: an option update while the muxer opens

`muxer_setopt` writes the option list only.  `muxer_open` copies the list to the
`koala_muxer` once, node by node, on the prepare thread, and
`koala_muxer_init_open` reads `io_timeout_ms` some steps later.  An update that
writes its node after the walk has fetched it is reported as a success and never
reaches the `koala_muxer`.

Main result: `option_update_kept`: in every run in which no update of the timeout
writes the list between the walk and the read, the last update that has returned 0
determines the timeout of `avio_open2`.
-/

namespace KoalaStreamer

open CStrings EventMachine

/-- The key is `io_timeout_ms` under some spelling. -/
def IsTimeout (key : CString) : Prop :=
  caseFold key = caseFold ioTimeoutKey

instance (key : CString) : Decidable (IsTimeout key) :=
  inferInstanceAs (Decidable (_ = _))

/-- The nodes of the timeout. -/
def timeoutNodes (opts : List (OptNode ValueId)) : List (CString × ValueId) :=
  callsFor ioTimeoutKey (callsOf opts)

/-- What an event makes of the value that the last update has promised. -/
def promise (last : Option CString) : StreamerEvent → Option CString
  | .called (.setopt key _) => if IsTimeout key then none else last
  | .setoptReturned key value ret =>
      if IsTimeout key ∧ ret = 0 then some value else last
  | _ => last

/-- The value of the last update of the timeout, if it has returned 0. -/
def promised (es : List StreamerEvent) : Option CString :=
  es.foldl promise none

/-- The last update of the timeout determines the timeout of `avio_open2`. -/
def UpdateKept (tr : List StreamerTransition) : Prop :=
  Along (fun before τ =>
    ∀ timeout value, .avioOpened timeout ∈ τ.events →
      promised (eventsOf before) = some value → timeout = atoi value) tr

/-- How many nodes the walk has left, from the time it reads the list until
`koala_muxer_init_open` reads the timeout. -/
def PreparePc.unread : PreparePc → Option ℕ
  | .walking left => some left
  | .applying left _ _ => some left
  | .registering => some 0
  | .initLocking => some 0
  | .initAllocating => some 0
  | .initAdding => some 0
  | .initConnecting => some 0
  | _ => none

/-- The timeout is not read yet, and the walk does not come to its node any more. -/
def WalkPassed (s : StreamerState) : Prop :=
  ∃ left ∈ s.prepare.unread, timeoutNodes (s.nodesLeft left) = []

/-- The client is about to write the node of the timeout. -/
def ClientPc.writesTimeout : ClientPc → Bool
  | .setoptWriting key _ => IsTimeout key
  | _ => false

/-- The client is in an update of the timeout. -/
def ClientPc.updatesTimeout : ClientPc → Bool
  | .setoptFreeing key _ => IsTimeout key
  | .setoptWriting key _ => IsTimeout key
  | _ => false

/-- An update of the timeout writes the list when the walk has passed: it has a node to
write, or memory for one. -/
def WritesLate (τ : StreamerTransition) : Prop :=
  match τ.action with
  | .client allocated =>
      τ.src.client.writesTimeout = true ∧ WalkPassed τ.src ∧
        (timeoutNodes τ.src.opts ≠ [] ∨ allocated = true)
  | _ => False

instance (s : StreamerState) : Decidable (WalkPassed s) :=
  inferInstanceAs (Decidable (∃ left ∈ s.prepare.unread, _))

instance : DecidablePred WritesLate
  | ⟨s, .client allocated, _, _⟩ =>
      inferInstanceAs (Decidable (s.client.writesTimeout = true ∧ WalkPassed s ∧
        (timeoutNodes s.opts ≠ [] ∨ allocated = true)))
  | ⟨_, .call _, _, _⟩ => inferInstanceAs (Decidable False)
  | ⟨_, .prepare _, _, _⟩ => inferInstanceAs (Decidable False)
  | ⟨_, .muxReturns, _, _⟩ => inferInstanceAs (Decidable False)

/-! ## The list -/

section Lists

variable {V : Type} {opts : List (OptNode V)}

theorem updateOpt_keys
    (opts : List (OptNode V)) (key : CString) (value : V) :
    (updateOpt opts key value).map (·.key) = opts.map (·.key) := by
  induction opts with
  | nil =>
      rfl
  | cons opt opts ih =>
      rw [updateOpt]
      split
      · rfl
      · rw [List.map_cons, ih, List.map_cons]

theorem updateOpt_length
    (opts : List (OptNode V)) (key : CString) (value : V) :
    (updateOpt opts key value).length = opts.length := by
  simpa using congrArg List.length (updateOpt_keys opts key value)

/-- The nodes of the new list are old or have the new value. -/
theorem mem_updateOpt
    {key : CString} {value : V} {opt : OptNode V}
    (h : opt ∈ updateOpt opts key value) :
    opt ∈ opts ∨ opt.value = value := by
  induction opts with
  | nil =>
      exact Or.inl h
  | cons opt' opts ih =>
      rw [updateOpt] at h
      split at h
      · rcases List.mem_cons.mp h with rfl | h
        · exact Or.inr rfl
        · exact Or.inl (List.mem_cons_of_mem _ h)
      · rcases List.mem_cons.mp h with rfl | h
        · exact Or.inl List.mem_cons_self
        · exact (ih h).imp_left (List.mem_cons_of_mem _)

theorem updateOpt_nodup
    {key : CString} {value : V}
    (h : (opts.map (·.value)).Nodup) (hnew : value ∉ opts.map (·.value)) :
    ((updateOpt opts key value).map (·.value)).Nodup := by
  induction opts with
  | nil =>
      exact h
  | cons opt opts ih =>
      rw [List.map_cons, List.mem_cons, not_or] at hnew
      rw [List.map_cons, List.nodup_cons] at h
      rw [updateOpt]
      split
      · exact List.nodup_cons.mpr ⟨hnew.2, h.2⟩
      · refine List.nodup_cons.mpr ⟨?_, ih h.2 hnew.2⟩
        intro hmem
        obtain ⟨opt', hopt', hvalue⟩ := List.mem_map.mp hmem
        rcases mem_updateOpt hopt' with hold | hold
        · exact h.1 (List.mem_map.mpr ⟨opt', hold, hvalue⟩)
        · exact hnew.1 (hold.symm.trans hvalue)

/-- What `setOpt` does to the list. -/
theorem setOpt_cases
    (opts : List (OptNode V)) (key : CString) (value : V) (allocated : Bool) :
    (getOpt opts key = none ∧ allocated = true ∧
      setOpt opts key value allocated = (0, ⟨key, value⟩ :: opts)) ∨
    (getOpt opts key = none ∧ setOpt opts key value allocated = (-1, opts)) ∨
    (getOpt opts key ≠ none ∧
      setOpt opts key value allocated = (0, updateOpt opts key value)) := by
  cases hget : getOpt opts key with
  | none =>
      cases allocated <;> simp [setOpt, hget]
  | some opt =>
      simp [setOpt, hget]

end Lists

section Timeouts

variable {opts : List (OptNode ValueId)}

theorem timeoutNodes_eq_nil_iff :
    timeoutNodes opts = [] ↔ ∀ key ∈ opts.map (·.key), ¬IsTimeout key := by
  simp [timeoutNodes, callsFor, callsOf, IsTimeout]

theorem timeoutNodes_cons_self
    (opt : OptNode ValueId) (h : IsTimeout opt.key) :
    timeoutNodes (opt :: opts) = (opt.key, opt.value) :: timeoutNodes opts :=
  callsFor_callsOf_cons_self opt h

theorem timeoutNodes_cons_other
    (opt : OptNode ValueId) (h : ¬IsTimeout opt.key) :
    timeoutNodes (opt :: opts) = timeoutNodes opts :=
  callsFor_callsOf_cons_other opt h

/-- The rest of a list keeps its nodes of the timeout in an update. -/
theorem timeoutNodes_drop_updateOpt
    (n : ℕ) (key : CString) (value : ValueId) :
    timeoutNodes ((updateOpt opts key value).drop n) = [] ↔
      timeoutNodes (opts.drop n) = [] := by
  rw [timeoutNodes_eq_nil_iff, timeoutNodes_eq_nil_iff, List.map_drop, List.map_drop,
    updateOpt_keys]

theorem timeoutNodes_updateOpt
    {key : CString} {id : ValueId} {first : CString × ValueId}
    {rest : List (CString × ValueId)}
    (hkey : IsTimeout key) (h : timeoutNodes opts = first :: rest) :
    timeoutNodes (updateOpt opts key id) = (first.1, id) :: rest := by
  rw [timeoutNodes, ← callsFor_callsOf_congr hkey] at h ⊢
  exact callsFor_updateOpt_self id h

theorem timeoutNodes_updateOpt_other
    {key : CString} {id : ValueId}
    (hkey : ¬IsTimeout key) :
    timeoutNodes (updateOpt opts key id) = timeoutNodes opts :=
  callsFor_updateOpt_other id (Ne.symm hkey)

theorem getOpt_timeout
    {key : CString} (h : IsTimeout key) :
    getOpt opts key = none ↔ timeoutNodes opts = [] := by
  rw [getOpt_eq_none_iff, timeoutNodes, callsFor_callsOf_congr h]

end Timeouts

/-! ## Invariants -/

/-- How many nodes the walk has left. -/
def PreparePc.left : PreparePc → ℕ
  | .walking left => left
  | .applying left _ _ => left
  | _ => 0

/-- The option list and its strings. -/
structure OptionInv (s : StreamerState) : Prop where
  single : (timeoutNodes s.opts).length ≤ 1
  stored : ∀ opt ∈ s.opts, opt.value < s.values.length
  distinct : (s.opts.map (·.value)).Nodup
  freed : ∀ value ∈ s.freedValues, value < s.values.length
  left : s.prepare.left ≤ s.opts.length

/-- The value is on its way to `avio_open2`: still ahead of the walk, about to be
applied, or in the `koala_muxer`. -/
def Carried (s : StreamerState) (id : ValueId) (value : CString) : Prop :=
  match s.prepare with
  | .walking left =>
      timeoutNodes (s.nodesLeft left) ≠ [] ∨ s.ioTimeoutMs = atoi value
  | .applying left key fetched =>
      timeoutNodes (s.nodesLeft left) ≠ [] ∨ (IsTimeout key ∧ fetched = id) ∨
        (¬IsTimeout key ∧ s.ioTimeoutMs = atoi value)
  | .registering => s.ioTimeoutMs = atoi value
  | .initLocking => s.ioTimeoutMs = atoi value
  | .initAllocating => s.ioTimeoutMs = atoi value
  | .initAdding => s.ioTimeoutMs = atoi value
  | .initConnecting => s.ioTimeoutMs = atoi value
  | _ => True

/-- The list holds the value, and so will the `koala_muxer`. -/
def Kept (s : StreamerState) (value : CString) : Prop :=
  ∃ key id, timeoutNodes s.opts = [(key, id)] ∧ id ∉ s.freedValues ∧
    s.values.getD id [] = value ∧ Carried s id value

section Steps

variable {s t : StreamerState} {es : List StreamerEvent} {value : CString}

theorem OptionInv.congr
    (h : OptionInv s)
    (hopts : t.opts = s.opts) (hvalues : t.values = s.values)
    (hfreed : t.freedValues = s.freedValues)
    (hleft : t.prepare.left ≤ s.opts.length) :
    OptionInv t where
  single := by rw [hopts]; exact h.single
  stored := by rw [hopts, hvalues]; exact h.stored
  distinct := by rw [hopts]; exact h.distinct
  freed := by rw [hfreed, hvalues]; exact h.freed
  left := by rw [hopts]; exact hleft

/-- The nodes that are left after the next one. -/
theorem nodesLeft_next
    (h : OptionInv s) {left : ℕ} (hprepare : s.prepare.left = left)
    {opt : OptNode ValueId} {opts : List (OptNode ValueId)}
    (hleft : s.nodesLeft left = opt :: opts) :
    opts.length ≤ s.opts.length ∧ s.nodesLeft opts.length = opts := by
  have hle : left ≤ s.opts.length := hprepare ▸ h.left
  have hlen : (s.nodesLeft left).length = left := by
    rw [StreamerState.nodesLeft, List.length_drop]
    omega
  rw [hleft, List.length_cons] at hlen
  refine ⟨by omega, ?_⟩
  have hnext : s.opts.length - opts.length = (s.opts.length - left) + 1 := by omega
  rw [StreamerState.nodesLeft, hnext, ← List.drop_drop, List.drop_one]
  rw [StreamerState.nodesLeft] at hleft
  rw [hleft, List.tail_cons]

/-- What the walk has left is part of the list. -/
theorem nodesLeft_subset
    (s : StreamerState) (left : ℕ) {node : CString × ValueId}
    (h : node ∈ timeoutNodes (s.nodesLeft left)) :
    node ∈ timeoutNodes s.opts := by
  simp only [timeoutNodes, callsFor, callsOf, List.mem_filter, List.mem_map] at h ⊢
  obtain ⟨⟨opt, hopt, hnode⟩, hkey⟩ := h
  exact ⟨⟨opt, List.mem_of_mem_drop hopt, hnode⟩, hkey⟩

theorem OptionInv.prepareMove
    (h : OptionInv s) (move : PrepareMove s t es) :
    OptionInv t := by
  cases move with
  | startsMux =>
      obtain ⟨_, _, heq⟩ := koalaMuxerStart_eq s
      rw [heq]
      exact h.congr rfl rfl rfl (Nat.zero_le _)
  | readsOpts =>
      exact h.congr rfl rfl rfl (Nat.le_refl _)
  | walks left opt opts hp hleft =>
      exact h.congr rfl rfl rfl (nodesLeft_next h (by rw [hp]; rfl) hleft).1
  | appliesTimeout left key fetched freed hp =>
      have hle := h.left
      rw [hp] at hle
      exact h.congr rfl rfl rfl hle
  | appliesOther left key fetched hp =>
      have hle := h.left
      rw [hp] at hle
      exact h.congr rfl rfl rfl hle
  | adds nofile =>
      cases nofile <;> exact h.congr rfl rfl rfl (Nat.zero_le _)
  | notifies event =>
      cases event <;> exact h.congr rfl rfl rfl (Nat.zero_le _)
  | _ =>
      exact h.congr rfl rfl rfl (Nat.zero_le _)

/-- A step of the prepare thread carries the value on. -/
theorem Kept.prepareMove
    (h : Kept s value) (hinv : OptionInv s) (move : PrepareMove s t es) :
    Kept t value := by
  obtain ⟨key, id, hnodes, hlive, hvalue, hcarried⟩ := h
  cases move with
  | startsMux =>
      obtain ⟨_, _, heq⟩ := koalaMuxerStart_eq s
      rw [heq]
      exact ⟨key, id, hnodes, hlive, hvalue, trivial⟩
  | readsOpts hp =>
      refine ⟨key, id, hnodes, hlive, hvalue, Or.inl ?_⟩
      show timeoutNodes (s.nodesLeft s.opts.length) ≠ []
      rw [StreamerState.nodesLeft, Nat.sub_self, List.drop_zero, hnodes]
      exact List.cons_ne_nil _ _
  | walks left opt opts hp hleft =>
      refine ⟨key, id, hnodes, hlive, hvalue, ?_⟩
      obtain ⟨-, hnext⟩ := nodesLeft_next hinv (by rw [hp]; rfl) hleft
      simp only [Carried, hp, hleft] at hcarried
      show timeoutNodes (s.nodesLeft opts.length) ≠ [] ∨ _
      rw [hnext]
      by_cases hk : IsTimeout opt.key
      · -- the node that was fetched is the node of the timeout
        have hmem : (opt.key, opt.value) ∈ timeoutNodes (s.nodesLeft left) := by
          rw [hleft, timeoutNodes_cons_self opt hk]
          exact List.mem_cons_self
        have hnode := nodesLeft_subset s left hmem
        rw [hnodes, List.mem_singleton, Prod.mk.injEq] at hnode
        exact Or.inr (Or.inl ⟨hk, hnode.2⟩)
      · rw [timeoutNodes_cons_other opt hk] at hcarried
        exact hcarried.imp_right fun hio => Or.inr ⟨hk, hio⟩
  | endsWalk left hp hleft =>
      refine ⟨key, id, hnodes, hlive, hvalue, ?_⟩
      simp only [Carried, hp, hleft] at hcarried
      exact hcarried.resolve_left fun h => h rfl
  | appliesTimeout left k fetched freed hp hkey =>
      refine ⟨key, id, hnodes, hlive, hvalue, ?_⟩
      have hk : IsTimeout k := (strcasecmp_eq_zero_iff.mp hkey).symm
      simp only [Carried, hp] at hcarried
      rcases hcarried with hahead | ⟨-, rfl⟩ | ⟨hother, -⟩
      · exact Or.inl hahead
      · refine Or.inr ?_
        show s.atoiValue fetched freed = atoi value
        rw [StreamerState.atoiValue, if_neg hlive, hvalue]
      · exact absurd hk hother
  | appliesOther left k fetched hp hkey =>
      refine ⟨key, id, hnodes, hlive, hvalue, ?_⟩
      have hk : ¬IsTimeout k := fun h => hkey (strcasecmp_eq_zero_iff.mpr h.symm)
      simp only [Carried, hp] at hcarried
      rcases hcarried with hahead | ⟨htimeout, -⟩ | ⟨-, hio⟩
      · exact Or.inl hahead
      · exact absurd htimeout hk
      · exact Or.inr hio
  | adds nofile hp =>
      simp only [Carried, hp] at hcarried
      refine ⟨key, id, hnodes, hlive, hvalue, ?_⟩
      cases nofile
      · exact hcarried
      · trivial
  | notifies event hp =>
      cases event <;> exact ⟨key, id, hnodes, hlive, hvalue, trivial⟩
  | registers hp | locksInit hp | allocates hp =>
      simp only [Carried, hp] at hcarried
      exact ⟨key, id, hnodes, hlive, hvalue, hcarried⟩
  | _ =>
      exact ⟨key, id, hnodes, hlive, hvalue, trivial⟩

theorem OptionInv.freeValue
    (h : OptionInv s) (key : CString) :
    OptionInv (freeValue s key) := by
  cases hget : getOpt s.opts key with
  | none =>
      simp only [KoalaStreamer.freeValue, hget]
      exact h
  | some opt =>
      simp only [KoalaStreamer.freeValue, hget]
      exact
        { h with
          freed := fun value hvalue => by
            rcases List.mem_cons.mp hvalue with rfl | hvalue
            · exact h.stored opt (List.mem_of_find?_eq_some hget)
            · exact h.freed value hvalue }

/-- What the last write of an update does. -/
theorem writeOpt_cases
    (s : StreamerState) (key value : CString) (allocated : Bool) :
    (getOpt s.opts key = none ∧ allocated = true ∧ writeOpt s key value allocated =
      (0, { s with
        opts := ⟨key, s.values.length⟩ :: s.opts
        values := s.values ++ [value] })) ∨
    (getOpt s.opts key = none ∧ writeOpt s key value allocated = (-1, s)) ∨
    (getOpt s.opts key ≠ none ∧ writeOpt s key value allocated =
      (0, { s with
        opts := updateOpt s.opts key s.values.length
        values := s.values ++ [value] })) := by
  rcases setOpt_cases s.opts key s.values.length allocated with
    ⟨hget, hallocated, hset⟩ | ⟨hget, hset⟩ | ⟨hget, hset⟩ <;>
    simp_all [writeOpt]

theorem OptionInv.writeOpt
    (h : OptionInv s) (key value : CString) (allocated : Bool) :
    OptionInv (writeOpt s key value allocated).2 := by
  have hnew : s.values.length ∉ s.opts.map (·.value) := by
    intro hmem
    obtain ⟨opt, hopt, hvalue⟩ := List.mem_map.mp hmem
    exact Nat.ne_of_lt (h.stored opt hopt) hvalue
  have hgrow : (s.values ++ [value]).length = s.values.length + 1 := by simp
  rcases writeOpt_cases s key value allocated with
    ⟨hget, -, hwrite⟩ | ⟨-, hwrite⟩ | ⟨hget, hwrite⟩ <;> rw [hwrite]
  · constructor
    · by_cases hkey : IsTimeout key
      · rw [timeoutNodes_cons_self ⟨key, _⟩ hkey, (getOpt_timeout hkey).mp hget]
        exact Nat.le_refl _
      · rw [timeoutNodes_cons_other ⟨key, _⟩ hkey]
        exact h.single
    · intro opt hopt
      show opt.value < (s.values ++ [value]).length
      rw [hgrow]
      rcases List.mem_cons.mp hopt with rfl | hopt
      · exact Nat.lt_succ_self _
      · exact Nat.lt_succ_of_lt (h.stored opt hopt)
    · exact List.nodup_cons.mpr ⟨hnew, h.distinct⟩
    · exact fun id hid => hgrow ▸ Nat.lt_succ_of_lt (h.freed id hid)
    · exact Nat.le_succ_of_le h.left
  · exact h
  · constructor
    · by_cases hkey : IsTimeout key
      · cases hnodes : timeoutNodes s.opts with
        | nil =>
            exact absurd ((getOpt_timeout hkey).mpr hnodes) hget
        | cons first rest =>
            have hsingle := h.single
            rw [hnodes] at hsingle
            rw [timeoutNodes_updateOpt hkey hnodes]
            exact hsingle
      · rw [timeoutNodes_updateOpt_other hkey]
        exact h.single
    · intro opt hopt
      show opt.value < (s.values ++ [value]).length
      rw [hgrow]
      rcases mem_updateOpt hopt with hopt | hopt
      · exact Nat.lt_succ_of_lt (h.stored opt hopt)
      · rw [hopt]
        exact Nat.lt_succ_self _
    · exact updateOpt_nodup h.distinct hnew
    · exact fun id hid => hgrow ▸ Nat.lt_succ_of_lt (h.freed id hid)
    · show s.prepare.left ≤ (updateOpt s.opts key s.values.length).length
      rw [updateOpt_length]
      exact h.left

/-- A step that leaves the walk where it is carries the value on. -/
theorem Carried.congr
    {id : ValueId}
    (h : Carried s id value)
    (hprepare : t.prepare = s.prepare) (hio : t.ioTimeoutMs = s.ioTimeoutMs)
    (hahead : ∀ left, s.prepare.left = left → timeoutNodes (s.nodesLeft left) ≠ [] →
      timeoutNodes (t.nodesLeft left) ≠ []) :
    Carried t id value := by
  cases hp : s.prepare <;> simp only [Carried, hprepare, hp, hio] at h ⊢ <;> try exact h
  case walking left =>
    exact h.imp_left (hahead left (by rw [hp]; rfl))
  case applying left key fetched =>
    exact h.imp_left (hahead left (by rw [hp]; rfl))

/-- An update in time reaches the walk, or comes after the read. -/
theorem carried_of_inTime
    {id : ValueId}
    (hlate : ¬WalkPassed s) (hprepare : t.prepare = s.prepare)
    (hahead : ∀ left, timeoutNodes (s.nodesLeft left) ≠ [] →
      timeoutNodes (t.nodesLeft left) ≠ []) :
    Carried t id value := by
  have hnone : timeoutNodes (s.nodesLeft 0) = [] := by
    rw [StreamerState.nodesLeft, Nat.sub_zero, List.drop_length]
    rfl
  cases hp : s.prepare <;>
    simp only [WalkPassed, PreparePc.unread, Carried, hprepare, hp, Option.mem_some_iff,
      exists_eq_left', hnone, not_true_eq_false] at hlate ⊢
  case walking left => exact Or.inl (hahead left hlate)
  case applying left key fetched => exact Or.inl (hahead left hlate)

/-- A link keeps what the walk has left. -/
theorem nodesLeft_link
    {left : ℕ} (hle : left ≤ s.opts.length) (opt : OptNode ValueId)
    (hopts : t.opts = opt :: s.opts) :
    t.nodesLeft left = s.nodesLeft left := by
  have hlen : (opt :: s.opts).length - left = (s.opts.length - left) + 1 := by
    rw [List.length_cons]
    omega
  rw [StreamerState.nodesLeft, hopts, hlen, List.drop_succ_cons, StreamerState.nodesLeft]

/-- An update keeps the nodes of the timeout that the walk has left. -/
theorem nodesLeft_updateOpt
    {key : CString} {id : ValueId} (left : ℕ)
    (hopts : t.opts = updateOpt s.opts key id) :
    timeoutNodes (t.nodesLeft left) = [] ↔ timeoutNodes (s.nodesLeft left) = [] := by
  rw [StreamerState.nodesLeft, hopts, updateOpt_length, timeoutNodes_drop_updateOpt,
    StreamerState.nodesLeft]

theorem Kept.congr
    (h : Kept s value)
    (hopts : t.opts = s.opts) (hvalues : t.values = s.values)
    (hfreed : t.freedValues = s.freedValues)
    (hprepare : t.prepare = s.prepare) (hio : t.ioTimeoutMs = s.ioTimeoutMs) :
    Kept t value := by
  obtain ⟨key, id, hnodes, hlive, hvalue, hcarried⟩ := h
  refine ⟨key, id, hopts ▸ hnodes, hfreed ▸ hlive, hvalues ▸ hvalue,
    hcarried.congr hprepare hio ?_⟩
  intro left _ hahead
  rwa [StreamerState.nodesLeft, hopts]

/-- The node of the timeout, as a member of the list. -/
theorem exists_of_timeoutNodes
    {key : CString} {id : ValueId} {opts : List (OptNode ValueId)}
    (h : timeoutNodes opts = [(key, id)]) :
    ∃ opt ∈ opts, IsTimeout opt.key ∧ opt.value = id := by
  have hmem : (key, id) ∈ timeoutNodes opts := by
    rw [h]
    exact List.mem_cons_self
  simp only [timeoutNodes, callsFor, callsOf, List.mem_filter, List.mem_map,
    decide_eq_true_eq] at hmem
  obtain ⟨⟨opt, hopt, hnode⟩, hkey⟩ := hmem
  rw [Prod.mk.injEq] at hnode
  exact ⟨opt, hopt, by rw [IsTimeout, hnode.1]; exact hkey, hnode.2⟩

/-- An update of another key frees the value of another node. -/
theorem Kept.freeValue
    (h : Kept s value) (hinv : OptionInv s) {key : CString} (hkey : ¬IsTimeout key) :
    Kept (freeValue s key) value := by
  obtain ⟨k, id, hnodes, hlive, hvalue, hcarried⟩ := h
  cases hget : getOpt s.opts key with
  | none =>
      simp only [KoalaStreamer.freeValue, hget]
      exact ⟨k, id, hnodes, hlive, hvalue, hcarried⟩
  | some opt =>
      simp only [KoalaStreamer.freeValue, hget]
      refine ⟨k, id, hnodes, ?_, hvalue,
        hcarried.congr rfl rfl fun _ _ hahead => hahead⟩
      intro hmem
      rcases List.mem_cons.mp hmem with hfreed | hmem
      · obtain ⟨node, hnode, htimeout, hid⟩ := exists_of_timeoutNodes hnodes
        have hsame := List.inj_on_of_nodup_map hinv.distinct hnode
          (List.mem_of_find?_eq_some hget) (hid.trans hfreed)
        have hfound := List.find?_some hget
        rw [decide_eq_true_eq, strcasecmp_eq_zero_iff, ← hsame] at hfound
        exact hkey (hfound.trans htimeout)
      · exact hlive hmem

/-- The last write of an update of another key. -/
theorem Kept.writeOpt_other
    (h : Kept s value) (hinv : OptionInv s) {key : CString} (hkey : ¬IsTimeout key)
    (new : CString) (allocated : Bool) :
    Kept (writeOpt s key new allocated).2 value := by
  obtain ⟨k, id, hnodes, hlive, hvalue, hcarried⟩ := h
  have hvalue' : (s.values ++ [new]).getD id [] = value := by
    obtain ⟨node, hnode, -, rfl⟩ := exists_of_timeoutNodes hnodes
    rw [List.getD_append _ _ _ _ (hinv.stored node hnode), hvalue]
  rcases writeOpt_cases s key new allocated with
    ⟨-, -, hwrite⟩ | ⟨-, hwrite⟩ | ⟨-, hwrite⟩ <;> rw [hwrite]
  · refine ⟨k, id, ?_, hlive, hvalue', hcarried.congr rfl rfl ?_⟩
    · exact (timeoutNodes_cons_other ⟨key, _⟩ hkey).trans hnodes
    · intro left hleft hahead
      rwa [nodesLeft_link (hleft ▸ hinv.left) ⟨key, _⟩ rfl]
  · exact ⟨k, id, hnodes, hlive, hvalue, hcarried⟩
  · refine ⟨k, id, ?_, hlive, hvalue', hcarried.congr rfl rfl ?_⟩
    · exact (timeoutNodes_updateOpt_other hkey).trans hnodes
    · intro left _ hahead
      exact mt (nodesLeft_updateOpt left rfl).mp hahead

/-- The last write of an update of the timeout, unless the walk has passed. -/
theorem kept_of_write
    (hinv : OptionInv s) {key : CString} (hkey : IsTimeout key)
    (new : CString) (allocated : Bool)
    (hlate : timeoutNodes s.opts ≠ [] ∨ allocated = true → ¬WalkPassed s)
    (hret : (writeOpt s key new allocated).1 = 0) :
    Kept (writeOpt s key new allocated).2 new := by
  have hlive : s.values.length ∉ s.freedValues :=
    fun hmem => Nat.lt_irrefl _ (hinv.freed _ hmem)
  have hvalue : (s.values ++ [new]).getD s.values.length [] = new := by simp
  rcases writeOpt_cases s key new allocated with
    ⟨hget, hallocated, hwrite⟩ | ⟨-, hwrite⟩ | ⟨hget, hwrite⟩
  · have hnil := (getOpt_timeout hkey).mp hget
    rw [hwrite]
    refine ⟨key, s.values.length, ?_, hlive, hvalue,
      carried_of_inTime (hlate (Or.inr hallocated)) rfl ?_⟩
    · exact (timeoutNodes_cons_self ⟨key, _⟩ hkey).trans (by rw [hnil])
    · intro left hahead
      obtain ⟨node, hnode⟩ := List.exists_mem_of_ne_nil _ hahead
      have hmem := nodesLeft_subset s left hnode
      rw [hnil] at hmem
      exact absurd hmem List.not_mem_nil
  · rw [hwrite] at hret
    exact absurd hret (by simp)
  · have hsingle := hinv.single
    have hpassed := hlate (Or.inl (mt (getOpt_timeout hkey).mpr hget))
    cases hnodes : timeoutNodes s.opts with
    | nil =>
        exact absurd ((getOpt_timeout hkey).mpr hnodes) hget
    | cons first rest =>
        rw [hnodes, List.length_cons] at hsingle
        have hrest : rest = [] := List.length_eq_zero_iff.mp (by omega)
        rw [hwrite]
        refine ⟨first.1, s.values.length, ?_, hlive, hvalue,
          carried_of_inTime hpassed rfl ?_⟩
        · rw [← hrest]
          exact timeoutNodes_updateOpt hkey hnodes
        · intro left hahead
          exact mt (nodesLeft_updateOpt left rfl).mp hahead

end Steps

/-! ## Runs -/

section Runs

variable {tr : List StreamerTransition} {s t : StreamerState}
  {action : StreamerAction} {es : List StreamerEvent}

theorem promised_append
    (es es' : List StreamerEvent) :
    promised (es ++ es') = es'.foldl promise (promised es) := by
  rw [promised, List.foldl_append]
  rfl

/-- What holds after a run in which no update of the timeout is late. -/
structure UpdateInv (tr : List StreamerTransition) (s : StreamerState) : Prop where
  options : OptionInv s
  pending : s.client.updatesTimeout = true → promised (eventsOf tr) = none
  kept : ∀ value, promised (eventsOf tr) = some value → Kept s value
  law : UpdateKept tr

/-- A step that opens nothing keeps the law. -/
theorem updateKept_snoc
    (h : UpdateKept tr) (hes : ∀ timeout, .avioOpened timeout ∉ es) :
    UpdateKept (tr ++ [⟨s, action, es, t⟩]) :=
  along_snoc_iff.mpr ⟨h, fun timeout _ hmem => absurd hmem (hes timeout)⟩

theorem koalaMuxerStart_promised
    (s : StreamerState) (last : Option CString) :
    s.koalaMuxerStart.2.foldl promise last = last := by
  unfold StreamerState.koalaMuxerStart
  split <;> rfl

theorem koalaMuxerStart_opens
    (s : StreamerState) (timeout : Int) :
    .avioOpened timeout ∉ s.koalaMuxerStart.2 := by
  intro h
  cases koalaMuxerStart_events s _ h

/-- A step that promises nothing and leaves the options alone. -/
theorem UpdateInv.frame
    (h : UpdateInv tr s)
    (hpromised : es.foldl promise (promised (eventsOf tr)) = promised (eventsOf tr))
    (hes : ∀ timeout, .avioOpened timeout ∉ es)
    (hclient : t.client.updatesTimeout = true → s.client.updatesTimeout = true)
    (hopts : t.opts = s.opts) (hvalues : t.values = s.values)
    (hfreed : t.freedValues = s.freedValues)
    (hprepare : t.prepare = s.prepare) (hio : t.ioTimeoutMs = s.ioTimeoutMs) :
    UpdateInv (tr ++ [⟨s, action, es, t⟩]) t := by
  rw [← promised_append, ← eventsOf_snoc tr ⟨s, action, es, t⟩] at hpromised
  constructor
  · exact h.options.congr hopts hvalues hfreed (hprepare ▸ h.options.left)
  · rw [hpromised]
    exact h.pending ∘ hclient
  · rw [hpromised]
    exact fun value hvalue =>
      (h.kept value hvalue).congr hopts hvalues hfreed hprepare hio
  · exact updateKept_snoc h.law hes

theorem callStep_options
    (s : StreamerState) (call : ClientCall) :
    (callStep s call).opts = s.opts ∧
    (callStep s call).values = s.values ∧
    (callStep s call).freedValues = s.freedValues ∧
    (callStep s call).prepare = s.prepare ∧
    (callStep s call).ioTimeoutMs = s.ioTimeoutMs := by
  cases call <;> exact ⟨rfl, rfl, rfl, rfl, rfl⟩

/-- A call that is no update of the timeout. -/
theorem callStep_updates
    (s : StreamerState) (call : ClientCall)
    (h : ∀ key value, call = .setopt key value → ¬IsTimeout key) :
    (callStep s call).client.updatesTimeout = false := by
  cases call with
  | setopt key value =>
      have hkey := h key value rfl
      simp only [callStep, StreamerState.setClient]
      split <;> simp [ClientPc.updatesTimeout, hkey]
  | start => rfl
  | _ =>
      simp only [callStep, StreamerState.setClient]
      split <;> rfl

/-- A call begins. -/
theorem UpdateInv.call
    (h : UpdateInv tr s) (call : ClientCall) :
    UpdateInv (tr ++ [⟨s, .call call, [.called call], callStep s call⟩])
      (callStep s call) := by
  obtain ⟨hopts, hvalues, hfreed, hprepare, hio⟩ := callStep_options s call
  by_cases hupdate : ∃ key value, call = .setopt key value ∧ IsTimeout key
  · -- the update that begins takes the promise of the last one away
    obtain ⟨key, value, rfl, hkey⟩ := hupdate
    have hnone : promised (eventsOf
        (tr ++ [⟨s, .call (.setopt key value), [.called (.setopt key value)],
          callStep s (.setopt key value)⟩])) = none := by
      rw [eventsOf_snoc, promised_append]
      simp [promise, hkey]
    constructor
    · exact h.options.congr hopts hvalues hfreed (hprepare ▸ h.options.left)
    · exact fun _ => hnone
    · rw [hnone]
      exact fun _ hvalue => nomatch hvalue
    · exact updateKept_snoc h.law (by simp)
  · have hother : ∀ key value, call = .setopt key value → ¬IsTimeout key :=
      fun key value hcall hkey => hupdate ⟨key, value, hcall, hkey⟩
    refine h.frame ?_ (by simp) ?_ hopts hvalues hfreed hprepare hio
    · cases call with
      | setopt key value => simp [promise, hother key value rfl]
      | _ => rfl
    · simp [callStep_updates s call hother]

/-- The client has freed the old value of an option. -/
theorem UpdateInv.freesValue
    (h : UpdateInv tr s) {key value : CString} (hc : s.client = .setoptFreeing key value) :
    UpdateInv (tr ++ [⟨s, action, [], (freeValue s key).setClient (.setoptWriting key value)⟩])
      ((freeValue s key).setClient (.setoptWriting key value)) := by
  have hsame : promised (eventsOf
      (tr ++ [⟨s, action, [], (freeValue s key).setClient (.setoptWriting key value)⟩])) =
        promised (eventsOf tr) := by
    rw [eventsOf_snoc, promised_append]
    rfl
  have hpending := h.pending
  simp only [hc, ClientPc.updatesTimeout, decide_eq_true_eq] at hpending
  have hfree := h.options.freeValue key
  constructor
  · exact hfree.congr rfl rfl rfl hfree.left
  · rw [hsame]
    simpa [StreamerState.setClient, ClientPc.updatesTimeout] using hpending
  · intro v hv
    rw [hsame] at hv
    by_cases hkey : IsTimeout key
    · rw [hpending hkey] at hv
      exact nomatch hv
    · exact ((h.kept v hv).freeValue h.options hkey).congr rfl rfl rfl rfl rfl
  · exact updateKept_snoc h.law (by simp)

/-- The client has written an option. -/
theorem UpdateInv.writesOpt
    (h : UpdateInv tr s) {key value : CString} (allocated : Bool)
    (hc : s.client = .setoptWriting key value)
    (hlate : ¬(s.client.writesTimeout = true ∧ WalkPassed s ∧
      (timeoutNodes s.opts ≠ [] ∨ allocated = true))) :
    UpdateInv
      (tr ++ [⟨s, action, [.setoptReturned key value (writeOpt s key value allocated).1],
        (writeOpt s key value allocated).2.setClient .idle⟩])
      ((writeOpt s key value allocated).2.setClient .idle) := by
  have hpending := h.pending
  simp only [hc, ClientPc.updatesTimeout, decide_eq_true_eq] at hpending
  simp only [hc, ClientPc.writesTimeout, decide_eq_true_eq] at hlate
  have hwrite := h.options.writeOpt key value allocated
  constructor
  · exact hwrite.congr rfl rfl rfl hwrite.left
  · exact fun hupdates => nomatch hupdates
  · intro v hv
    rw [eventsOf_snoc, promised_append] at hv
    simp only [List.foldl_cons, List.foldl_nil, promise] at hv
    by_cases hkey : IsTimeout key
    · split at hv
      · rename_i hret
        obtain rfl := Option.some.inj hv
        have hkept := kept_of_write h.options hkey value allocated
          (fun hnode hpassed => hlate ⟨hkey, hpassed, hnode⟩) hret.2
        exact hkept.congr rfl rfl rfl rfl rfl
      · rw [hpending hkey] at hv
        exact nomatch hv
    · rw [if_neg fun hret => hkey hret.1] at hv
      exact ((h.kept v hv).writeOpt_other h.options hkey value allocated).congr
        rfl rfl rfl rfl rfl
  · exact updateKept_snoc h.law (by simp)

/-- The client goes on. -/
theorem UpdateInv.client
    (h : UpdateInv tr s) (allocated : Bool) (move : ClientMove s allocated t es)
    (hlate : ¬WritesLate ⟨s, .client allocated, es, t⟩) :
    UpdateInv (tr ++ [⟨s, .client allocated, es, t⟩]) t := by
  cases move with
  | freesValue key value hc => exact h.freesValue hc
  | writesOpt key value hc => exact h.writesOpt allocated hc hlate
  | creates hc =>
      constructor
      · exact h.options.congr rfl rfl rfl (Nat.zero_le _)
      · exact fun hupdates => nomatch hupdates
      · intro v hv
        rw [eventsOf_snoc, promised_append] at hv
        obtain ⟨key, id, hnodes, hlive, hvalue, -⟩ := h.kept v hv
        exact ⟨key, id, hnodes, hlive, hvalue, trivial⟩
      · exact updateKept_snoc h.law (by simp)
  | startsMux hc hfree =>
      have hpromised := koalaMuxerStart_promised s
      have hopens := koalaMuxerStart_opens s
      obtain ⟨_, _, heq⟩ := koalaMuxerStart_eq s
      rw [heq]
      exact h.frame (hpromised _) hopens (fun hupdates => nomatch hupdates)
        rfl rfl rfl rfl rfl
  | skipsClose release hc | clears release hc =>
      exact h.frame rfl (by simp) (by cases release <;> exact fun hupdates => nomatch hupdates)
        rfl rfl rfl rfl rfl
  | _ =>
      exact h.frame rfl (by simp) (fun hupdates => nomatch hupdates) rfl rfl rfl rfl rfl

theorem prepareMove_promised
    (move : PrepareMove s t es) (last : Option CString) :
    es.foldl promise last = last := by
  cases move with
  | startsMux => exact koalaMuxerStart_promised s last
  | _ => rfl

/-- `avio_open2` is given what the `koala_muxer` holds. -/
theorem prepareMove_opens
    (move : PrepareMove s t es) {timeout : Int} (h : .avioOpened timeout ∈ es) :
    s.prepare = .initConnecting ∧ timeout = s.ioTimeoutMs := by
  cases move with
  | connectFails hp => exact ⟨hp, by simpa using h⟩
  | connects hp => exact ⟨hp, by simpa using h⟩
  | startsMux => exact absurd h (koalaMuxerStart_opens s timeout)
  | _ => simp at h

theorem prepareMove_client
    (move : PrepareMove s t es) :
    t.client = s.client := by
  cases move with
  | startsMux =>
      obtain ⟨_, _, heq⟩ := koalaMuxerStart_eq s
      rw [heq]
      rfl
  | _ => rfl

/-- The prepare thread goes on. -/
theorem UpdateInv.prepare
    (h : UpdateInv tr s) (answer : PrepareAnswer) (move : PrepareMove s t es) :
    UpdateInv (tr ++ [⟨s, .prepare answer, es, t⟩]) t := by
  have hpromised : promised (eventsOf (tr ++ [⟨s, .prepare answer, es, t⟩])) =
      promised (eventsOf tr) := by
    rw [eventsOf_snoc, promised_append]
    exact prepareMove_promised move _
  constructor
  · exact h.options.prepareMove move
  · rw [hpromised, prepareMove_client move]
    exact h.pending
  · intro value hvalue
    exact (h.kept value (hpromised ▸ hvalue)).prepareMove h.options move
  · refine along_snoc_iff.mpr ⟨h.law, ?_⟩
    intro timeout value hmem hvalue
    obtain ⟨hp, rfl⟩ := prepareMove_opens move hmem
    obtain ⟨key, id, -, -, -, hcarried⟩ := h.kept value hvalue
    simpa only [Carried, hp] using hcarried

theorem UpdateInv.step
    (h : UpdateInv tr s) (move : StreamerMove s action t es)
    (hlate : ¬WritesLate ⟨s, action, es, t⟩) :
    UpdateInv (tr ++ [⟨s, action, es, t⟩]) t := by
  cases move with
  | calls call => exact h.call call
  | client allocated move => exact h.client allocated move hlate
  | prepare answer move => exact h.prepare answer move
  | muxReturns => exact h.frame rfl (by simp) id rfl rfl rfl rfl rfl

/--
If no update of the timeout writes the list between the walk and the read, the last
update that has returned determines the timeout of `avio_open2`.
-/
theorem option_update_kept
    (run : Run streamerStep .create tr s)
    (hlate : ∀ τ ∈ tr, ¬WritesLate τ) :
    UpdateKept tr := by
  have hinv : UpdateInv tr s := by
    refine run.invariant_of (fun τ => ¬WritesLate τ) UpdateInv ?_ ?_ hlate
    · exact
        { options := ⟨Nat.zero_le _, by simp [StreamerState.create], List.nodup_nil,
            by simp [StreamerState.create], Nat.zero_le _⟩
          pending := fun _ => rfl
          kept := fun _ hvalue => nomatch hvalue
          law := along_nil _ }
    · exact fun tr s action es t h step hstep => h.step (streamerStep_move step) hstep
  exact hinv.law

end Runs

/-- An update that the walk meets determines the timeout. -/
theorem option_update_kept_in_time :
    ∃ (tr : List StreamerTransition) (s : StreamerState),
      Run streamerStep .create tr s ∧ .avioOpened 2500 ∈ eventsOf tr ∧ UpdateKept tr := by
  obtain ⟨tr, s, run, hmem, hlate⟩ :=
    Run.exists_of_exec streamerStep .create
      (List.flatten
        [[.call (.setopt ioTimeoutKey (ofLiteral "1000")), .client true,
            .call .prepare, .client true, .client true],
          List.replicate 3 (.prepare ⟨0, false, 0⟩),
          [.call (.setopt (ofLiteral "IO_TIMEOUT_MS") (ofLiteral "2500")), .client true,
            .prepare ⟨0, false, 0⟩, .client true],
          List.replicate 8 (.prepare ⟨0, false, 0⟩)])
      (fun r => .avioOpened 2500 ∈ eventsOf r.1 ∧ ∀ τ ∈ r.1, ¬WritesLate τ)
      (by decide +kernel)
  exact ⟨tr, s, run, hmem, option_update_kept run hlate⟩

/-- An update that returns 0 while the callbacks are registered is lost. -/
theorem option_update_fails_registering :
    ∃ (tr : List StreamerTransition) (s : StreamerState),
      Run streamerStep .create tr s ∧
      promised (eventsOf tr) = some (ofLiteral "5000") ∧
      (eventsOf tr).getLast? = some (.avioOpened 0) ∧ ¬UpdateKept tr := by
  obtain ⟨tr, s, run, hpromised, hlast, hbefore, hopened⟩ :=
    Run.exists_of_exec streamerStep .create
      (List.flatten
        [[.call .prepare, .client true, .client true],
          List.replicate 5 (.prepare ⟨0, false, 0⟩),
          [.call (.setopt ioTimeoutKey (ofLiteral "5000")), .client true],
          List.replicate 5 (.prepare ⟨0, false, 0⟩)])
      (fun r =>
        promised (eventsOf r.1) = some (ofLiteral "5000") ∧
        (eventsOf r.1).getLast? = some (.avioOpened 0) ∧
        promised (eventsOf r.1.dropLast) = some (ofLiteral "5000") ∧
        ∃ τ ∈ r.1.getLast?, .avioOpened 0 ∈ τ.events)
      (by decide +kernel)
  refine ⟨tr, s, run, hpromised, hlast, fun hkept => ?_⟩
  obtain ⟨τ, hτ, hmem⟩ := hopened
  have hpre : tr.dropLast ++ [τ] <+: tr :=
    ⟨[], by rw [List.append_nil, List.dropLast_append_getLast? τ hτ]⟩
  have hzero := hkept tr.dropLast τ hpre 0 (ofLiteral "5000") hmem hbefore
  exact absurd hzero (by decide +kernel)

end KoalaStreamer
