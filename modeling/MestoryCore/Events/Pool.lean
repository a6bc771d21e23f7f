import MestoryCore.Events.Channels
import Mathlib.Data.List.Perm.Basic

/-!
# A bounded pool of channels

The pool as a component beside the calls. It has a fixed number of channels,
hands out one that is free, lets a call wait while none is, and gets back the
channel of every call that releases one. Opening a channel may fail at any time.

Each channel of the pool is free or is used by one call, in every state of every
schedule; so this pool satisfies what `Channels` assumes of one.
-/

namespace MestoryCore.Events

open Asyncio Transition
open scoped List

variable {Datetime ε : Type}

/-- The calls, and the channels of the pool that no call has. -/
structure PooledBroker (Datetime ε : Type) where
  broker : Broker Datetime ε
  free : List Channel

/-- A pool of `capacity` channels, before any call. -/
def PooledBroker.start (capacity : Nat) : PooledBroker Datetime ε := ⟨.empty, List.range capacity⟩

/-- The free channels after an action, if the pool lets it happen. -/
def freeAfter (calls : List (Call Datetime ε)) (free : List Channel) :
    Action Datetime ε → Option (List Channel)
  | .resume _ (.acquired (.ok channel)) =>
      if channel ∈ free then some (free.erase channel) else none
  | .resume id .released => some ((calls[id]?.bind Call.channel?).toList ++ free)
  | _ => some free

def PooledBroker.step (lib : Pydantic Datetime) :
    Step (PooledBroker Datetime ε) (Action Datetime ε) (Nat × String)
  | s, a => do
      let free ← freeAfter s.broker.calls s.free a
      let (broker, lines) ← Broker.step lib s.broker a
      return (⟨broker, free⟩, lines)

/-- The channels that the calls use. -/
def Broker.inUse (s : Broker Datetime ε) : List Channel := s.calls.filterMap Call.channel?

/-! ## One step -/

section Step

variable {lib : Pydantic Datetime} {s t : PooledBroker Datetime ε} {a : Action Datetime ε}
variable {fs : List (Nat × String)} {free free' : List Channel} {calls : List (Call Datetime ε)}

theorem PooledBroker.step_eq_some_iff :
    PooledBroker.step lib s a = some (t, fs) ↔
      freeAfter s.broker.calls s.free a = some t.free ∧
        Broker.step lib s.broker a = some (t.broker, fs) := by
  constructor
  · intro h
    obtain ⟨free, hfree, h⟩ := Option.bind_eq_some_iff.mp h
    obtain ⟨⟨broker, lines⟩, hbroker, h⟩ := Option.bind_eq_some_iff.mp h
    obtain ⟨rfl, rfl⟩ := Prod.mk.inj (Option.some.inj h)
    exact ⟨hfree, hbroker⟩
  · rintro ⟨hfree, hbroker⟩
    simp [PooledBroker.step, hfree, hbroker]

/-- Replacing an item replaces what a map makes of it. -/
theorem perm_filterMap_set {α β : Type} (f : α → Option β) {items : List α} {i : Nat}
    {old : α} (new : α) (h : items[i]? = some old) :
    (f old).toList ++ (items.set i new).filterMap f ~ (f new).toList ++ items.filterMap f := by
  obtain ⟨early, rfl⟩ := List.getElem?_eq_some_iff.mp h
  have cons (item : α) (rest : List α) :
      (item :: rest).filterMap f = (f item).toList ++ rest.filterMap f := by
    rw [List.filterMap_cons]
    cases f item <;> rfl
  have replaced := (List.set_perm_cons_eraseIdx early new).filterMap f
  have before := (List.getElem_cons_eraseIdx_perm early).filterMap f
  rw [cons] at replaced before
  calc
    (f items[i]).toList ++ (items.set i new).filterMap f
      ~ (f items[i]).toList ++ ((f new).toList ++ (items.eraseIdx i).filterMap f) :=
        replaced.append_left _
    _ ~ (f new).toList ++ ((f items[i]).toList ++ (items.eraseIdx i).filterMap f) :=
        List.perm_append_comm_assoc ..
    _ ~ (f new).toList ++ items.filterMap f := before.append_left _

/-- What the free channels lose to an answer is what its call then uses more. -/
theorem perm_of_freeAfter {event : Event Datetime} {session reached : Session ε} {id : Nat}
    {call : Call Datetime ε} {answer : Answer ε} (hcall : calls[id]? = some call)
    (used : call.channel? = session.channel?)
    (moved : session.next lib event answer = some reached)
    (h : freeAfter calls free (.resume id answer) = some free') :
    free' ++ reached.channel?.toList ~ free ++ call.channel?.toList := by
  have release : (calls[id]?.bind Call.channel?) = session.channel? := by rw [hcall]; exact used
  rw [used]
  unfold Session.next at moved
  split at moved
  · rename_i exchangeName channel
    obtain rfl := Option.some.inj moved
    simp only [freeAfter] at h
    split_ifs at h with available
    obtain rfl := Option.some.inj h
    calc
      free.erase channel ++ [channel]
        ~ channel :: free.erase channel := List.perm_append_singleton ..
      _ ~ free := (List.perm_cons_erase available).symm
      _ = free ++ [] := (List.append_nil _).symm
  · obtain rfl := Option.some.inj moved
    obtain rfl := Option.some.inj h
    exact .refl _
  · obtain rfl := Option.some.inj moved
    obtain rfl := Option.some.inj h
    rw [Session.channel?_declared]
    exact .refl _
  · obtain rfl := Option.some.inj moved
    obtain rfl := Option.some.inj h
    exact .refl _
  · obtain rfl := Option.some.inj moved
    obtain rfl := Option.some.inj h
    exact .refl _
  · rename_i channel outcome
    obtain rfl := Option.some.inj moved
    obtain rfl := Option.some.inj h
    rw [release]
    calc
      [channel] ++ free ++ []
        = channel :: free := List.append_nil _
      _ ~ free ++ [channel] := (List.perm_append_singleton ..).symm
  · cases moved

theorem Session.channel?_start (event : Event Datetime) (publisher : EventPublisher) :
    (start event publisher : Session ε).channel? = none := by
  induction publisher with
  | logging | rabbit => rfl
  | echoing inner ih => exact ih

/-- A step moves channels between the pool and the calls. -/
theorem PooledBroker.perm_of_step {as : List (Action Datetime ε)}
    (inv : s.broker.InSession lib as) (h : PooledBroker.step lib s a = some (t, fs)) :
    t.free ++ t.broker.inUse ~ s.free ++ s.broker.inUse := by
  obtain ⟨broker, free⟩ := t
  obtain ⟨hfree, hbroker⟩ := PooledBroker.step_eq_some_iff.mp h
  cases Broker.step_eq_some_iff.mp hbroker with
  | @publish publisher event =>
      obtain rfl : s.free = free := Option.some.inj hfree
      have new := (Call.InSession.start (ε := ε) lib publisher event).1.channel?_eq
      rw [Session.channel?_start] at new
      simp [Broker.inUse, new]
  | @accept id call delivery hcall =>
      obtain rfl : s.free = free := Option.some.inj hfree
      have same : call.take.channel? = call.channel? := rfl
      have moved := perm_filterMap_set Call.channel? call.take hcall
      rw [same] at moved
      exact ((List.perm_append_left_iff _).mp moved).append_left _
  | @resume id answer call code hcall resumed =>
      obtain ⟨session, here⟩ := inv.calls hcall
      obtain ⟨reached, moved, there, -⟩ := here.resume resumed
      have lost := perm_of_freeAfter hcall here.channel?_eq moved hfree
      have gained := perm_filterMap_set Call.channel? (call.goOn code) hcall
      rw [there.channel?_eq] at gained
      refine (List.perm_append_left_iff call.channel?.toList).mp ?_
      calc
        call.channel?.toList ++ (free ++ (s.broker.calls.set id _).filterMap Call.channel?)
          ~ free ++ (call.channel?.toList ++ (s.broker.calls.set id _).filterMap Call.channel?) :=
            List.perm_append_comm_assoc ..
        _ ~ free ++ (reached.channel?.toList ++ s.broker.inUse) := gained.append_left _
        _ = free ++ reached.channel?.toList ++ s.broker.inUse := (List.append_assoc ..).symm
        _ ~ s.free ++ call.channel?.toList ++ s.broker.inUse := lost.append_right _
        _ = s.free ++ (call.channel?.toList ++ s.broker.inUse) := List.append_assoc ..
        _ ~ call.channel?.toList ++ (s.free ++ s.broker.inUse) := List.perm_append_comm_assoc ..

end Step

/-! ## Whole runs -/

section Runs

variable {lib : Pydantic Datetime} {capacity : Nat} {s : PooledBroker Datetime ε}
variable {as : List (Action Datetime ε)} {es : List (Nat × String)}

/-- The calls over a pool are calls. -/
theorem PooledBroker.broker_run (run : Run (PooledBroker.step lib) (.start capacity) as es s) :
    Run (Broker.step lib) .empty as es s.broker :=
  run.forget fun hstep => (PooledBroker.step_eq_some_iff.mp hstep).2

/-- Each channel of the pool is free or is used by one call. -/
theorem PooledBroker.conserved_of_run
    (run : Run (PooledBroker.step lib) (.start capacity) as es s) :
    s.free ++ s.broker.inUse ~ List.range capacity := by
  induction run with
  | refl => exact .of_eq (List.append_nil _)
  | snoc run hstep ih =>
      have inv := Broker.inSession_of_run (PooledBroker.broker_run run)
      exact (PooledBroker.perm_of_step inv hstep).trans ih

/-- What a call has is in use. -/
theorem Broker.mem_inUse_of_mem_heldBy {broker : Broker Datetime ε}
    (run : Run (Broker.step lib) .empty as es broker) {id : Nat} {channel : Channel}
    (h : channel ∈ heldBy id as) : channel ∈ broker.inUse := by
  rcases Nat.lt_or_ge id broker.calls.length with early | late
  · have hcall := List.getElem?_eq_getElem early
    rw [heldBy_of_run run hcall, Option.mem_toList] at h
    exact List.mem_filterMap.mpr ⟨_, List.mem_of_getElem? hcall, h⟩
  · rw [heldBy, (Broker.inSession_of_run run).started late] at h
    cases h

theorem Pooled.snoc {a : Action Datetime ε} (h : Pooled as)
    (fresh : ∀ id channel, a = .resume id (.acquired (.ok channel)) →
      ∀ other, channel ∉ heldBy other as) : Pooled (as ++ [a]) := by
  intro n id channel acquired other
  rcases Nat.lt_or_ge n as.length with early | late
  · rw [List.getElem?_append_left early] at acquired
    rw [List.take_append_of_le_length (Nat.le_of_lt early)]
    exact h n id channel acquired other
  · rw [List.getElem?_append_right late, List.getElem?_singleton] at acquired
    split_ifs at acquired with last
    obtain rfl : n = as.length := by omega
    rw [List.take_append_of_le_length (Nat.le_refl _), List.take_length]
    exact fresh id channel (Option.some.inj acquired) other

/-- The pool hands a channel out only while no call has it. -/
theorem PooledBroker.pooled_of_run
    (run : Run (PooledBroker.step lib) (.start capacity) as es s) : Pooled as := by
  induction run with
  | refl =>
      intro n id channel acquired
      cases acquired
  | @snoc as es fs s t a run hstep ih =>
      refine ih.snoc ?_
      rintro id channel rfl other held
      have hfree := (PooledBroker.step_eq_some_iff.mp hstep).1
      simp only [freeAfter] at hfree
      split_ifs at hfree with available
      have used := Broker.mem_inUse_of_mem_heldBy (PooledBroker.broker_run run) held
      have distinct := (PooledBroker.conserved_of_run run).nodup_iff.mpr List.nodup_range
      exact List.disjoint_of_nodup_append distinct available used

end Runs

end MestoryCore.Events
