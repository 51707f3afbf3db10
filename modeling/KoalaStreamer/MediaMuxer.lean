import KoalaStreamer.Library.CStrings
import KoalaStreamer.Library.DataRefinement
import Mathlib.Data.List.Induction
import Mathlib.Logic.Function.Basic

/-!
# MediaMuxer/MediaMuxer.c: options

A muxer keeps its options in a linked list that is searched by `strcasecmp`;
`muxer_open` hands every node to its delegate.  The delegate of the program is
`KoalaMuxer_delegate`, which passes an option on to `koala_muxer_setopt`.

The list stands for a map from keys up to ASCII case to the spelling of the first
call and the value of the last one.

Main results:
* `muxerSetopt_refines`: `muxer_setopt` is an update of this map;
* `options_last_value_wins`: after any calls of `muxer_setopt`, `muxer_open` calls
  the delegate once for each key that was set, with its last value, down to the
  timeout of the `koala_muxer`.
-/

namespace KoalaStreamer

open CStrings DataRefinement

/-- `OptNode`, without its link. -/
structure OptNode (V : Type) where
  key : CString
  value : V
deriving DecidableEq, Repr

section Options

variable {V : Type}

/-- `getOpt`: the first node of the key. -/
def getOpt (opts : List (OptNode V)) (key : CString) : Option (OptNode V) :=
  opts.find? fun opt => strcasecmp key opt.key = 0

/-- `opt->value = value` on the node that `getOpt` finds. -/
def updateOpt : List (OptNode V) → CString → V → List (OptNode V)
  | [], _, _ => []
  | opt :: opts, key, value =>
      if strcasecmp key opt.key = 0 then { opt with value := value } :: opts
      else opt :: updateOpt opts key value

/-- `setOpt`; `allocated` tells whether `malloc` gave a node. -/
def setOpt
    (opts : List (OptNode V)) (key : CString) (value : V) (allocated : Bool) :
    Int × List (OptNode V) :=
  match getOpt opts key with
  | none => if allocated then (0, ⟨key, value⟩ :: opts) else (-1, opts)
  | some _ => (0, updateOpt opts key value)

end Options

/-- The part of `muxer_delegate` that options pass through. -/
structure MuxerDelegate (H : Type) where
  probe : Int
  /-- `open`; `none` is NULL. -/
  openHandle : Option CString → Option CString → BitVec 32 → Option H
  setopt : H → CString → CString → Int × H

/-- `muxer`; `mMuxer` tells whether the delegate is set. -/
structure Muxer (H : Type) where
  mMuxer : Bool
  pDelcnt : Option H
  opts : List (OptNode CString)
deriving DecidableEq, Repr

/-- How `muxer_open` ends. -/
structure MuxerOpenExit (H : Type) where
  ret : Int
  pHandle : Muxer H
  /-- The calls of the delegate's `setopt`, in order. -/
  calls : List (CString × CString)
deriving DecidableEq, Repr

section MediaMuxer

variable {H : Type}

/-- `create_muxer_handle`. -/
def createMuxerHandle : Muxer H where
  mMuxer := false
  pDelcnt := none
  opts := []

/-- `muxer_setopt`; `none` is NULL. -/
def muxerSetopt
    (pHandle : Option (Muxer H)) (key value : Option CString) (allocated : Bool) :
    Int × Option (Muxer H) :=
  match pHandle with
  | none => (-1, none)
  | some muxer =>
      match key, value with
      | some key, some value =>
          ((setOpt muxer.opts key value allocated).1,
            some { muxer with opts := (setOpt muxer.opts key value allocated).2 })
      | _, _ => (-2, some muxer)

/-- `muxer_open`: the delegate is given every option of the list. -/
def walkOpts (delegate : MuxerDelegate H) :
    H → List (OptNode CString) → H × List (CString × CString)
  | handle, [] => (handle, [])
  | handle, opt :: opts =>
      let rest := walkOpts delegate (delegate.setopt handle opt.key opt.value).2 opts
      (rest.1, (opt.key, opt.value) :: rest.2)

/-- `muxer_open`. -/
def muxerOpen
    (delegate : MuxerDelegate H) (pHandle : Muxer H)
    (outName outFormat : Option CString) (elem : BitVec 32) : MuxerOpenExit H :=
  if delegate.probe < 0 then
    { ret := delegate.probe, pHandle := pHandle, calls := [] }
  else
    match delegate.openHandle outName outFormat elem with
    | none =>
        { ret := -1
          pHandle := { pHandle with mMuxer := true, pDelcnt := none }
          calls := [] }
    | some handle =>
        { ret := 0
          pHandle :=
            { pHandle with
              mMuxer := true
              pDelcnt := some (walkOpts delegate handle pHandle.opts).1 }
          calls := (walkOpts delegate handle pHandle.opts).2 }

end MediaMuxer

/-! ## KoalaMuxer_delegate -/

/-- The field of `koala_muxer` that an option can reach. -/
structure KoalaOptions where
  ioTimeoutMs : Int
deriving DecidableEq, Repr

/-- `koala_dele`, without the callbacks, which `open` leaves unset. -/
structure KoalaDele where
  pKoalaHandle : Option KoalaOptions
  outName : Option CString
  outFormat : Option CString
  elem : BitVec 32
deriving DecidableEq, Repr

/-- The key that `koala_muxer_setopt` knows. -/
def ioTimeoutKey : CString := ofLiteral "io_timeout_ms"

/-- `koala_muxer_setopt`. -/
def koalaMuxerSetopt
    (pHandle : Option KoalaOptions) (key value : CString) :
    Int × Option KoalaOptions :=
  match pHandle with
  | none => (-1, none)
  | some handle =>
      if strcasecmp ioTimeoutKey key = 0 then
        (0, some { handle with ioTimeoutMs := atoi value })
      else
        (-2, some handle)

/-- `KoalaMuxer_open`; the handle of `koala_get_muxer_handle` is zeroed. -/
def koalaDeleOpen
    (outName outFormat : Option CString) (elem : BitVec 32) : Option KoalaDele :=
  some
    { pKoalaHandle := some { ioTimeoutMs := 0 }
      outName := outName
      outFormat := outFormat
      elem := elem }

/-- `KoalaMuxer_setopt`. -/
def koalaDeleSetopt
    (pHandle : KoalaDele) (key value : CString) : Int × KoalaDele :=
  match pHandle.pKoalaHandle with
  | none => (-1, pHandle)
  | some handle =>
      ((koalaMuxerSetopt (some handle) key value).1,
        { pHandle with
          pKoalaHandle := (koalaMuxerSetopt (some handle) key value).2 })

/-- `KoalaMuxer_delegate`. -/
def koalaMuxerDelegate : MuxerDelegate KoalaDele where
  probe := 1
  openHandle := koalaDeleOpen
  setopt := koalaDeleSetopt

/-! ## The option map -/

/-- From keys up to case to the spelling and the value in force. -/
abbrev OptionMap := List UInt8 → Option (CString × CString)

/-- Setting an option keeps the spelling of the key and replaces the value. -/
def optionUpdate : Spec OptionMap (CString × CString) Int :=
  fun m call =>
    (0, Function.update m (caseFold call.1)
      (some (((m (caseFold call.1)).map (·.1)).getD call.1, call.2)))

/-- The calls that set the key under any spelling. -/
def callsFor {V : Type} (key : CString) (calls : List (CString × V)) :
    List (CString × V) :=
  calls.filter fun call => caseFold call.1 = caseFold key

/-- The spelling of the first call for the key and the value of the last one. -/
def settled (key : CString) (calls : List (CString × CString)) :
    Option (CString × CString) :=
  match (callsFor key calls).head?, (callsFor key calls).getLast? with
  | some first, some last => some (first.1, last.2)
  | _, _ => none

/-- The options of a list as calls, in the order of the list. -/
def callsOf {V : Type} (opts : List (OptNode V)) : List (CString × V) :=
  opts.map fun opt => (opt.key, opt.value)

/-- The list holds one node for each key of the map, and no other. -/
def Represents (opts : List (OptNode CString)) (m : OptionMap) : Prop :=
  ∀ key, callsFor key (callsOf opts) = (m (caseFold key)).toList

/-- `muxer_setopt` with strings and memory, as an operation on a muxer. -/
def muxerSetoptStep {H : Type} : Object (Muxer H) (CString × CString) Int Empty :=
  fun muxer call =>
    match muxerSetopt (some muxer) (some call.1) (some call.2) true with
    | (ret, some muxer') => .ok (ret, muxer')
    | (ret, none) => .ok (ret, muxer)

section Calls

variable {V : Type} {opts : List (OptNode V)}

theorem callsFor_callsOf_cons_self
    (opt : OptNode V) {key : CString}
    (h : caseFold opt.key = caseFold key) :
    callsFor key (callsOf (opt :: opts)) =
      (opt.key, opt.value) :: callsFor key (callsOf opts) := by
  simp [callsFor, callsOf, h]

theorem callsFor_callsOf_cons_other
    (opt : OptNode V) {key : CString}
    (h : caseFold opt.key ≠ caseFold key) :
    callsFor key (callsOf (opt :: opts)) = callsFor key (callsOf opts) := by
  simp [callsFor, callsOf, h]

theorem callsFor_callsOf_congr
    {k key : CString}
    (h : caseFold k = caseFold key) :
    callsFor k (callsOf opts) = callsFor key (callsOf opts) := by
  simp only [callsFor, h]

/-- `getOpt` finds a node if and only if the key has one. -/
theorem getOpt_eq_none_iff
    (key : CString) :
    getOpt opts key = none ↔ callsFor key (callsOf opts) = [] := by
  simp [getOpt, strcasecmp_eq_zero_iff, callsFor, callsOf, eq_comm (a := caseFold key)]

/-- The update writes the value of the first node of the key. -/
theorem callsFor_updateOpt_self
    {key : CString} (value : V) {first : CString × V} {rest : List (CString × V)}
    (h : callsFor key (callsOf opts) = first :: rest) :
    callsFor key (callsOf (updateOpt opts key value)) = (first.1, value) :: rest := by
  induction opts with
  | nil =>
      simp [callsFor, callsOf] at h
  | cons opt opts ih =>
      by_cases hkey : caseFold opt.key = caseFold key
      · have hcmp : strcasecmp key opt.key = 0 := strcasecmp_eq_zero_iff.mpr hkey.symm
        rw [callsFor_callsOf_cons_self _ hkey, List.cons.injEq] at h
        rw [updateOpt, if_pos hcmp,
          callsFor_callsOf_cons_self { opt with value := value } hkey, h.2, ← h.1]
      · have hcmp : strcasecmp key opt.key ≠ 0 :=
          fun h => hkey (strcasecmp_eq_zero_iff.mp h).symm
        rw [callsFor_callsOf_cons_other _ hkey] at h
        rw [updateOpt, if_neg hcmp, callsFor_callsOf_cons_other _ hkey, ih h]

/-- Other keys keep their nodes. -/
theorem callsFor_updateOpt_other
    {k key : CString} (value : V)
    (h : caseFold k ≠ caseFold key) :
    callsFor k (callsOf (updateOpt opts key value)) = callsFor k (callsOf opts) := by
  induction opts with
  | nil =>
      rfl
  | cons opt opts ih =>
      rw [updateOpt]
      split
      · rename_i hcmp
        have hkey : caseFold opt.key ≠ caseFold k := by
          rw [← strcasecmp_eq_zero_iff.mp hcmp]
          exact h.symm
        rw [callsFor_callsOf_cons_other _ hkey,
          callsFor_callsOf_cons_other { opt with value := value } hkey]
      · by_cases hkey : caseFold opt.key = caseFold k
        · rw [callsFor_callsOf_cons_self _ hkey, callsFor_callsOf_cons_self _ hkey, ih]
        · rw [callsFor_callsOf_cons_other _ hkey, callsFor_callsOf_cons_other _ hkey, ih]

end Calls

theorem represents_empty :
    Represents [] (fun _ => none) := by
  intro key
  rfl

/-- `setOpt` with memory succeeds and updates the map. -/
theorem Represents.setOpt
    {opts : List (OptNode CString)} {m : OptionMap}
    (h : Represents opts m) (call : CString × CString) :
    (setOpt opts call.1 call.2 true).1 = 0 ∧
    Represents (setOpt opts call.1 call.2 true).2 (optionUpdate m call).2 := by
  obtain ⟨key, value⟩ := call
  cases hmap : m (caseFold key) with
  | none =>
      have hnil : callsFor key (callsOf opts) = [] := by
        rw [h key, hmap, Option.toList_none]
      have hget : getOpt opts key = none := (getOpt_eq_none_iff key).mpr hnil
      simp only [KoalaStreamer.setOpt, hget, if_true, true_and]
      intro k
      simp only [optionUpdate, hmap, Option.map_none, Option.getD_none]
      by_cases hk : caseFold k = caseFold key
      · rw [callsFor_callsOf_cons_self ⟨key, value⟩ hk.symm,
          callsFor_callsOf_congr hk, hnil, hk, Function.update_self, Option.toList_some]
      · rw [callsFor_callsOf_cons_other ⟨key, value⟩ (Ne.symm hk), h k,
          Function.update_of_ne hk]
  | some first =>
      have hcons : callsFor key (callsOf opts) = [first] := by
        rw [h key, hmap, Option.toList_some]
      have hget : getOpt opts key ≠ none := by
        rw [Ne, getOpt_eq_none_iff, hcons]
        exact List.cons_ne_nil _ _
      obtain ⟨opt, hopt⟩ := Option.ne_none_iff_exists'.mp hget
      simp only [KoalaStreamer.setOpt, hopt, true_and]
      intro k
      simp only [optionUpdate, hmap, Option.map_some, Option.getD_some]
      by_cases hk : caseFold k = caseFold key
      · rw [callsFor_callsOf_congr hk, callsFor_updateOpt_self value hcons, hk,
          Function.update_self, Option.toList_some]
      · rw [callsFor_updateOpt_other value hk, h k, Function.update_of_ne hk]

/-- `muxer_setopt` is an update of the map. -/
theorem muxerSetopt_refines
    {H : Type} :
    Refines (fun (muxer : Muxer H) m => Represents muxer.opts m)
      muxerSetoptStep optionUpdate := by
  intro muxer m call hR
  obtain ⟨hret, hrep⟩ := hR.setOpt call
  refine ⟨{ muxer with opts := (setOpt muxer.opts call.1 call.2 true).2 }, ?_, hrep⟩
  simp only [muxerSetoptStep, muxerSetopt, hret]
  rfl

/-- Updating for every call of a history leaves what the history settles. -/
theorem specAll_optionUpdate
    (hist : List (CString × CString)) (key : CString) :
    (specAll optionUpdate (fun _ => none) hist).2 (caseFold key) = settled key hist := by
  induction hist using List.reverseRecOn with
  | nil =>
      rfl
  | append_singleton hist call ih =>
      rw [specAll_snoc]
      by_cases hk : caseFold key = caseFold call.1
      · have hcalls : callsFor key (hist ++ [call]) = callsFor key hist ++ [call] := by
          simp [callsFor, hk]
        simp only [optionUpdate, ← hk, Function.update_self, ih, settled, hcalls]
        cases callsFor key hist with
        | nil =>
            rfl
        | cons first rest =>
            simp [List.getLast?_cons]
      · have hcalls : callsFor key (hist ++ [call]) = callsFor key hist := by
          simp [callsFor, Ne.symm hk]
        simp only [optionUpdate, Function.update_of_ne hk, ih, settled, hcalls]

theorem walkOpts_calls
    {H : Type} (delegate : MuxerDelegate H) (handle : H)
    (opts : List (OptNode CString)) :
    (walkOpts delegate handle opts).2 = callsOf opts := by
  induction opts generalizing handle with
  | nil =>
      rfl
  | cons opt opts ih =>
      simp only [walkOpts, ih, callsOf, List.map_cons]

/-- The last option for the timeout that `koala_muxer_setopt` is given wins. -/
theorem walkOpts_koala
    (opts : List (OptNode CString)) (dele : KoalaDele) (options : KoalaOptions)
    (h : dele.pKoalaHandle = some options) :
    (walkOpts koalaMuxerDelegate dele opts).1.pKoalaHandle =
      some ⟨(((callsFor ioTimeoutKey (callsOf opts)).getLast?).map fun call =>
        atoi call.2).getD options.ioTimeoutMs⟩ := by
  induction opts generalizing dele options with
  | nil =>
      exact h
  | cons opt opts ih =>
      by_cases hkey : caseFold opt.key = caseFold ioTimeoutKey
      · have hcmp : strcasecmp ioTimeoutKey opt.key = 0 :=
          strcasecmp_eq_zero_iff.mpr hkey.symm
        rw [callsFor_callsOf_cons_self _ hkey]
        simp only [walkOpts]
        rw [ih _ ⟨atoi opt.value⟩
          (by simp [koalaMuxerDelegate, koalaDeleSetopt, h, koalaMuxerSetopt, hcmp])]
        cases callsFor ioTimeoutKey (callsOf opts) with
        | nil =>
            rfl
        | cons call calls =>
            simp [List.getLast?_cons]
      · have hcmp : strcasecmp ioTimeoutKey opt.key ≠ 0 :=
          fun h => hkey (strcasecmp_eq_zero_iff.mp h).symm
        rw [callsFor_callsOf_cons_other _ hkey]
        simp only [walkOpts]
        exact ih _ options
          (by simp [koalaMuxerDelegate, koalaDeleSetopt, h, koalaMuxerSetopt, hcmp])

/-- `io_timeout_ms` of the open muxer; `none` if there is no handle. -/
def openTimeout (muxer : Muxer KoalaDele) : Option Int :=
  (muxer.pDelcnt.bind (·.pKoalaHandle)).map (·.ioTimeoutMs)

/--
After any calls of `muxer_setopt` every option reaches the delegate once, under its
first spelling and with its last value, and so does the timeout.
-/
theorem options_last_value_wins
    (hist : List (CString × CString))
    (outName outFormat : Option CString) (elem : BitVec 32) :
    ∃ muxer : Muxer KoalaDele,
      runAll muxerSetoptStep createMuxerHandle hist = .ok (hist.map fun _ => 0, muxer) ∧
      (muxerOpen koalaMuxerDelegate muxer outName outFormat elem).ret = 0 ∧
      (∀ key,
        callsFor key (muxerOpen koalaMuxerDelegate muxer outName outFormat elem).calls =
          (settled key hist).toList) ∧
      openTimeout (muxerOpen koalaMuxerDelegate muxer outName outFormat elem).pHandle =
        some (((settled ioTimeoutKey hist).map fun call => atoi call.2).getD 0) := by
  obtain ⟨muxer, hrun, hrep⟩ :=
    (muxerSetopt_refines (H := KoalaDele)).runAll hist (s := createMuxerHandle)
      represents_empty
  have hcalls : ∀ key, callsFor key (callsOf muxer.opts) = (settled key hist).toList := by
    intro key
    rw [hrep key, specAll_optionUpdate]
  refine ⟨muxer, ?_, rfl, ?_, ?_⟩
  · rw [hrun, specAll_answers optionUpdate (r := 0) fun _ _ => rfl]
  · intro key
    rw [← hcalls key, ← walkOpts_calls koalaMuxerDelegate]
    rfl
  · have hwalk := walkOpts_koala muxer.opts
      ⟨some ⟨0⟩, outName, outFormat, elem⟩ ⟨0⟩ rfl
    rw [hcalls ioTimeoutKey] at hwalk
    have hlast : (settled ioTimeoutKey hist).toList.getLast? = settled ioTimeoutKey hist := by
      cases settled ioTimeoutKey hist <;> rfl
    rw [hlast] at hwalk
    simp only [openTimeout, muxerOpen, koalaMuxerDelegate, koalaDeleOpen] at hwalk ⊢
    simp [hwalk]

end KoalaStreamer
