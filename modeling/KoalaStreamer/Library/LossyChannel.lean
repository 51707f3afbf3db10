import KoalaStreamer.Library.EventMachine
import Mathlib.Data.List.Perm.Basic

/-!
# A channel that keeps the order and may lose

What is sent goes to the end of the items in transit, the oldest one is received, and
any item in transit may be lost.  Nothing else happens to an item: it is not changed,
not repeated and not overtaken.

Main results:
* `run_inOrder`: what was received and is in transit is a sublist of what was sent;
* `run_accounts`: every item sent was received, was lost or is in transit.
-/

namespace LossyChannel

open EventMachine

universe u

variable {α : Type u}

inductive ChannelAction (α : Type u)
  | send (a : α)
  /-- The item at this place of the transit is lost. -/
  | lose (place : ℕ)
  | receive

inductive ChannelEvent (α : Type u)
  | sent (a : α)
  | lost (a : α)
  | received (a : α)

/-- One step of the channel on the items in transit, the oldest first. -/
def channelStep : Machine (List α) (ChannelAction α) (ChannelEvent α)
  | transit, .send a => some (transit ++ [a], [.sent a])
  | transit, .lose place =>
      match transit[place]? with
      | none => none
      | some a => some (transit.eraseIdx place, [.lost a])
  | [], .receive => none
  | a :: transit, .receive => some (transit, [.received a])

/-- A step of the channel in a run. -/
abbrev ChannelTransition (α : Type u) :=
  Transition (List α) (ChannelAction α) (ChannelEvent α)

section Projections

def ChannelEvent.sent? : ChannelEvent α → Option α
  | .sent a => some a
  | _ => none

def ChannelEvent.lost? : ChannelEvent α → Option α
  | .lost a => some a
  | _ => none

def ChannelEvent.received? : ChannelEvent α → Option α
  | .received a => some a
  | _ => none

/-- What the two ends of the channel see. -/
def ChannelEvent.ends : ChannelEvent α → Option (α ⊕ α)
  | .sent a => some (.inl a)
  | .lost _ => none
  | .received a => some (.inr a)

def sentItems (es : List (ChannelEvent α)) : List α :=
  es.filterMap ChannelEvent.sent?

def lostItems (es : List (ChannelEvent α)) : List α :=
  es.filterMap ChannelEvent.lost?

def receivedItems (es : List (ChannelEvent α)) : List α :=
  es.filterMap ChannelEvent.received?

@[simp] theorem sentItems_append
    (es es' : List (ChannelEvent α)) :
    sentItems (es ++ es') = sentItems es ++ sentItems es' :=
  List.filterMap_append

@[simp] theorem lostItems_append
    (es es' : List (ChannelEvent α)) :
    lostItems (es ++ es') = lostItems es ++ lostItems es' :=
  List.filterMap_append

@[simp] theorem receivedItems_append
    (es es' : List (ChannelEvent α)) :
    receivedItems (es ++ es') = receivedItems es ++ receivedItems es' :=
  List.filterMap_append

@[simp] theorem sentItems_sent (a : α) : sentItems [.sent a] = [a] := rfl

@[simp] theorem sentItems_lost (a : α) : sentItems [.lost a] = [] := rfl

@[simp] theorem sentItems_received (a : α) : sentItems [.received a] = [] := rfl

@[simp] theorem lostItems_sent (a : α) : lostItems [.sent a] = [] := rfl

@[simp] theorem lostItems_lost (a : α) : lostItems [.lost a] = [a] := rfl

@[simp] theorem lostItems_received (a : α) : lostItems [.received a] = [] := rfl

@[simp] theorem receivedItems_sent (a : α) : receivedItems [.sent a] = [] := rfl

@[simp] theorem receivedItems_lost (a : α) : receivedItems [.lost a] = [] := rfl

@[simp] theorem receivedItems_received (a : α) : receivedItems [.received a] = [a] := rfl

/-- The ends see exactly what is sent. -/
theorem sentItems_eq_ends
    (es : List (ChannelEvent α)) :
    sentItems es = (es.filterMap ChannelEvent.ends).filterMap Sum.getLeft? := by
  rw [sentItems, List.filterMap_filterMap]
  refine congrFun (congrArg List.filterMap ?_) es
  funext e
  cases e <;> rfl

/-- The ends see exactly what is received. -/
theorem receivedItems_eq_ends
    (es : List (ChannelEvent α)) :
    receivedItems es = (es.filterMap ChannelEvent.ends).filterMap Sum.getRight? := by
  rw [receivedItems, List.filterMap_filterMap]
  refine congrFun (congrArg List.filterMap ?_) es
  funext e
  cases e <;> rfl

end Projections

section Runs

variable {tr : List (ChannelTransition α)} {transit transit' : List α}

/-- A run of one step that sends. -/
theorem run_send
    (transit : List α) (a : α) :
    Run channelStep transit [⟨transit, .send a, [.sent a], transit ++ [a]⟩]
      (transit ++ [a]) :=
  Run.single rfl

/-- Any item in transit may be lost. -/
theorem run_lose
    (before : List α) (a : α) (after : List α) :
    Run channelStep (before ++ a :: after)
      [⟨before ++ a :: after, .lose before.length, [.lost a], before ++ after⟩]
      (before ++ after) := by
  refine Run.single ?_
  have hitem : (before ++ a :: after)[before.length]? = some a := by simp
  have hrest : (before ++ a :: after).eraseIdx before.length = before ++ after := by
    simp [List.eraseIdx_append_of_length_le]
  simp only [channelStep, hitem, hrest]

/-- The oldest item may be received. -/
theorem run_receive
    (a : α) (transit : List α) :
    Run channelStep (a :: transit) [⟨a :: transit, .receive, [.received a], transit⟩]
      transit :=
  Run.single rfl

/-- What a step of the channel does to the items, with what it shows. -/
inductive ChannelMove (transit : List α) : List α → List (ChannelEvent α) → Prop
  | sends (a : α) : ChannelMove transit (transit ++ [a]) [.sent a]
  | loses (before after : List α) (a : α) (hitem : transit = before ++ a :: after) :
      ChannelMove transit (before ++ after) [.lost a]
  | receives (a : α) (rest : List α) (hitem : transit = a :: rest) :
      ChannelMove transit rest [.received a]

/-- Inversion of a step of the channel. -/
theorem channelStep_move
    {action : ChannelAction α} {es : List (ChannelEvent α)}
    (h : channelStep transit action = some (transit', es)) :
    ChannelMove transit transit' es := by
  cases action with
  | send a =>
      obtain ⟨rfl, rfl⟩ := Prod.mk.inj (Option.some.inj h)
      exact .sends a
  | lose place =>
      simp only [channelStep] at h
      split at h
      · cases h
      · rename_i a hitem
        obtain ⟨rfl, rfl⟩ := Prod.mk.inj (Option.some.inj h)
        obtain ⟨hlt, rfl⟩ := List.getElem?_eq_some_iff.mp hitem
        rw [List.eraseIdx_eq_take_drop_succ]
        refine .loses _ _ _ ?_
        rw [List.getElem_cons_drop, List.take_append_drop]
  | receive =>
      cases transit with
      | nil => cases h
      | cons a rest =>
          obtain ⟨rfl, rfl⟩ := Prod.mk.inj (Option.some.inj h)
          exact .receives a rest rfl

/-- What was received and is in transit is a sublist of what was sent. -/
theorem run_inOrder
    (run : Run channelStep [] tr transit) :
    (receivedItems (eventsOf tr) ++ transit).Sublist (sentItems (eventsOf tr)) := by
  refine Run.invariant
    (fun tr transit =>
      (receivedItems (eventsOf tr) ++ transit).Sublist (sentItems (eventsOf tr)))
    (List.Sublist.refl _) ?_ run
  intro tr transit action es transit' ih hstep
  rw [eventsOf_snoc, receivedItems_append, sentItems_append]
  cases channelStep_move hstep with
  | sends a =>
      rw [receivedItems_sent, sentItems_sent, List.append_nil, ← List.append_assoc]
      exact ih.append (List.Sublist.refl [a])
  | loses before after a hitem =>
      subst hitem
      have hkept : (before ++ after).Sublist (before ++ a :: after) :=
        (List.sublist_cons_self a after).append_left before
      simpa using (hkept.append_left (receivedItems (eventsOf tr))).trans ih
  | receives a rest hitem =>
      subst hitem
      simpa using ih

/-- Every item sent was received, was lost or is in transit. -/
theorem run_accounts
    (run : Run channelStep [] tr transit) :
    (sentItems (eventsOf tr)).Perm
      (receivedItems (eventsOf tr) ++ lostItems (eventsOf tr) ++ transit) := by
  classical
  refine Run.invariant
    (fun tr transit => (sentItems (eventsOf tr)).Perm
      (receivedItems (eventsOf tr) ++ lostItems (eventsOf tr) ++ transit))
    (List.Perm.refl _) ?_ run
  intro tr transit action es transit' ih hstep
  rw [eventsOf_snoc, receivedItems_append, sentItems_append, lostItems_append]
  rw [List.perm_iff_count] at ih ⊢
  intro x
  have hcount := ih x
  cases channelStep_move hstep with
  | sends a =>
      simp only [sentItems_sent, receivedItems_sent, lostItems_sent, List.count_append,
        List.count_nil] at hcount ⊢
      omega
  | loses before after a hitem =>
      subst hitem
      simp only [sentItems_lost, receivedItems_lost, lostItems_lost, List.count_append,
        List.count_nil, List.count_cons] at hcount ⊢
      omega
  | receives a rest hitem =>
      subst hitem
      simp only [sentItems_received, receivedItems_received, lostItems_received,
        List.count_append, List.count_nil, List.count_cons] at hcount ⊢
      omega

end Runs

end LossyChannel
