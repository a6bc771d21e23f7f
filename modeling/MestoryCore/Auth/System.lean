import MestoryCore.Auth.Load
import Mathlib.Tactic.NormNum

/-!
# Concurrent calls on one event loop

`Sys` is a client together with the calls suspended in `http.get`; the calls
suspended on the lock are in the lock's deque. One action runs one segment of
one call, or lets the clock advance, or asks a waiter to cancel. The schedule,
the answers of the source, and the cancellations are arbitrary.

A step emits what an observer of the client would record: the requests sent,
the documents installed, the loads that failed or were cancelled, and the calls
that ended. `Move` lists the steps one by one, so that a proof about a step is
a case analysis of what a segment can do and not of how it is written.
-/

namespace MestoryCore.Auth

open Python Asyncio Transition

/-- A call suspended in `http.get`, and the number of its request. -/
structure Flight (τ : Type) where
  call : Call τ
  number : Nat

structure Sys (τ : Type) where
  client : JwksClient τ
  flights : List (Flight τ) := []
  now : Time
  calls : Nat := 0
  requests : Nat := 0
  exceptions : Nat := 0

inductive Action (τ : Type) where
  /-- The clock reads `time`. -/
  | advance (time : Time)
  /-- A new call of `get_key(kid)` runs to its first await. -/
  | call (kid : String) (tag : τ)
  /-- A waiter whose future is done runs. -/
  | wake (id : Nat)
  /-- `Task.cancel` on a waiter. -/
  | cancel (id : Nat)
  /-- `http.get` ends with an answer or an exception, and its call runs. -/
  | receive (id : Nat) (got : Except LibraryExn Response)
  /-- `http.get` ends with the cancellation of its call. -/
  | abort (id : Nat)

inductive Event (τ : Type) where
  | called (call : Call τ)
  | queued (call : Call τ)
  | load (call : Call τ) (event : LoadEvent)
  | ended (call : Call τ) (time : Time) (outcome : Outcome)

/-- What an event says about a load. -/
def Event.load? {τ : Type} : Event τ → Option LoadEvent
  | .load _ event => some event
  | _ => none

/-- The loads in a trace. -/
def history {τ : Type} (es : List (Event τ)) : List LoadEvent := es.filterMap Event.load?

namespace Sys

variable {τ : Type}

/-- Record where a segment left its call. -/
def settle (s : Sys τ) (call : Call τ) (before : List (Event τ)) :
    Segment τ → Sys τ × List (Event τ)
  | .waiting client => ({ s with client }, before ++ [.queued call])
  | .requesting client =>
      ({ s with client, flights := s.flights ++ [⟨call, s.requests⟩], requests := s.requests + 1 },
        before ++ [.load call (.sent s.requests s.now)])
  | .finished client outcome =>
      ({ s with client, exceptions := s.exceptions + 1 },
        before ++ [.ended call s.now outcome])

def flight? (s : Sys τ) (id : Nat) : Option (Flight τ) :=
  s.flights.find? fun f => f.call.id = id

/-- The flight has landed. -/
def land (s : Sys τ) (id : Nat) : Sys τ :=
  { s with flights := s.flights.eraseP fun f => f.call.id = id }

/-- The segment of a call whose `http.get` ended. -/
def received (lib : Library) (s : Sys τ) (f : Flight τ) (got : Except LibraryExn Response) :
    Sys τ × List (Event τ) :=
  match fetch lib s.client.url got with
  | .ok (document, keys) =>
      let client := s.client.install s.now keys
      s.settle f.call [.load f.call (.installed f.number s.now document)]
        (.finished client (client.classify lib f.call.kid s.exceptions))
  | .error exn =>
      let error : Raised := { id := s.exceptions, exn }
      let client := s.client.recordFailure error
      s.settle f.call [.load f.call (.failed f.number error)]
        (.finished client (client.fallBack f.call.kid error))

def step (lib : Library) : Step (Sys τ) (Action τ) (Event τ)
  | s, .advance time => if s.now ≤ time then some ({ s with now := time }, []) else none
  | s, .call kid tag =>
      let call : Call τ := { id := s.calls, kid, tag }
      some ({ s with calls := s.calls + 1 }.settle call [.called call]
        (s.client.getKey lib s.now call s.exceptions))
  | s, .wake id =>
      match s.client.lock.find? id with
      | none => none
      | some w =>
          match w.future with
          | .pending => none
          | .woken =>
              some (s.settle w.task []
                ({ s.client with lock := s.client.lock.resume id }.underLock lib s.now w.task
                  s.exceptions))
          | .cancelled | .wokenCancelled =>
              some (s.settle w.task []
                (.finished { s.client with lock := s.client.lock.abandon id } .cancelled))
  | s, .cancel id =>
      match s.client.lock.find? id with
      | none => none
      | some _ => some ({ s with client := { s.client with lock := s.client.lock.cancel id } }, [])
  | s, .receive id got =>
      match s.flight? id with
      | none => none
      | some f => some ((s.land id).received lib f got)
  | s, .abort id =>
      match s.flight? id with
      | none => none
      | some f =>
          some ((s.land id).settle f.call [.load f.call (.aborted f.number)]
            (.finished s.client.abortLoad .cancelled))

end Sys

/-- A client that `__init__` returned, before any call. -/
inductive Started {τ : Type} (lib : Library) (url : String) (ttl interval : Time) :
    Sys τ → Prop where
  | mk {client : JwksClient τ} (now : Time) :
      JwksClient.init lib url ttl interval = .ok client →
        Started lib url ttl interval { client, now }

/-- A client of the closed runs, with the source's default intervals. -/
def Sys.sampleAt {τ : Type} (url : String) : Sys τ where
  client := { url, ttl := 3600, minRefetchInterval := 30, interval_le_ttl := by norm_num }
  now := 0

theorem Started.sampleAt {τ : Type} {lib : Library} {url : String} :
    Started lib url 3600 30 (.sampleAt url : Sys τ) :=
  .mk 0 (by simp only [JwksClient.init]; rw [dif_pos (by norm_num)])

def sampleUrl : String := "https://auth.test/jwks.json"

def Sys.sample {τ : Type} : Sys τ := .sampleAt sampleUrl

theorem Started.sample {τ : Type} {lib : Library} :
    Started lib sampleUrl 3600 30 (.sample : Sys τ) :=
  .sampleAt

/-! ## What one step does -/

section Steps

variable {τ : Type}

/-- Why a call is about to use its lock: it took the free lock in its first
segment, or it was woken and holds the lock now. `lock` is the lock it holds,
`base` the state with the call counted, and `before` what the step emitted. -/
inductive Entry (s : Sys τ) :
    Action τ → Call τ → Lock (Call τ) → Sys τ → List (Event τ) → Prop where
  | free {kid : String} {tag : τ} {lock : Lock (Call τ)}
      (acquired : s.client.lock.acquire? = some lock)
      (miss : s.client.lookup kid = none ∨ s.client.isStale s.now = true) :
      Entry s (.call kid tag) ⟨s.calls, kid, tag⟩ lock { s with calls := s.calls + 1 }
        [.called ⟨s.calls, kid, tag⟩]
  | woken {id : Nat} {w : Waiter (Call τ)} (found : s.client.lock.find? id = some w)
      (future : w.future = .woken) :
      Entry s (.wake id) w.task (s.client.lock.resume id) s []

/-- The steps of the system. -/
inductive Move (lib : Library) (s : Sys τ) : Action τ → Sys τ → List (Event τ) → Prop where
  | advance {time : Time} (later : s.now ≤ time) :
      Move lib s (.advance time) { s with now := time } []
  | hit {kid key : String} {tag : τ} (cached : s.client.lookup kid = some key)
      (fresh : s.client.isStale s.now = false) :
      Move lib s (.call kid tag) { s with calls := s.calls + 1, exceptions := s.exceptions + 1 }
        [.called ⟨s.calls, kid, tag⟩, .ended ⟨s.calls, kid, tag⟩ s.now (.returned key)]
  | queue {kid : String} {tag : τ} (busy : s.client.lock.acquire? = none)
      (miss : s.client.lookup kid = none ∨ s.client.isStale s.now = true)
      (due : s.client.lock.locked = true ∨ s.client.shouldAttemptFetch s.now kid = true) :
      Move lib s (.call kid tag)
        { s with
          client := { s.client with lock := s.client.lock.enqueue s.calls ⟨s.calls, kid, tag⟩ }
          calls := s.calls + 1 }
        [.called ⟨s.calls, kid, tag⟩, .queued ⟨s.calls, kid, tag⟩]
  | throttled {kid : String} {tag : τ} (unlocked : s.client.lock.locked = false)
      (miss : s.client.lookup kid = none ∨ s.client.isStale s.now = true)
      (window : s.client.mayRefetch s.now = false) :
      Move lib s (.call kid tag) { s with calls := s.calls + 1, exceptions := s.exceptions + 1 }
        [.called ⟨s.calls, kid, tag⟩,
          .ended ⟨s.calls, kid, tag⟩ s.now (s.client.classify lib kid s.exceptions)]
  | send {a : Action τ} {call : Call τ} {lock : Lock (Call τ)} {base : Sys τ}
      {before : List (Event τ)} (entry : Entry s a call lock base before)
      (needed : s.client.shouldAttemptFetch s.now call.kid = true) :
      Move lib s a
        { base with
          client := { s.client with lock, lastAttemptAt := some s.now }
          flights := s.flights ++ [⟨call, s.requests⟩]
          requests := s.requests + 1 }
        (before ++ [.load call (.sent s.requests s.now)])
  | recheck {id : Nat} {w : Waiter (Call τ)} (found : s.client.lock.find? id = some w)
      (future : w.future = .woken)
      (unneeded : s.client.shouldAttemptFetch s.now w.task.kid = false) :
      Move lib s (.wake id)
        { s with
          client := { s.client with lock := (s.client.lock.resume id).release }
          exceptions := s.exceptions + 1 }
        [.ended w.task s.now (s.client.classify lib w.task.kid s.exceptions)]
  | withdraw {id : Nat} {w : Waiter (Call τ)} (found : s.client.lock.find? id = some w)
      (future : w.future = .cancelled ∨ w.future = .wokenCancelled) :
      Move lib s (.wake id)
        { s with
          client := { s.client with lock := s.client.lock.abandon id }
          exceptions := s.exceptions + 1 }
        [.ended w.task s.now .cancelled]
  | cancel {id : Nat} {w : Waiter (Call τ)} (found : s.client.lock.find? id = some w) :
      Move lib s (.cancel id)
        { s with client := { s.client with lock := s.client.lock.cancel id } } []
  | install {id : Nat} {f : Flight τ} {got : Except LibraryExn Response} {document : Json}
      {keys : Keys} (found : s.flight? id = some f)
      (fetched : fetch lib s.client.url got = .ok (document, keys)) :
      Move lib s (.receive id got)
        { s.land id with
          client := s.client.install s.now keys
          exceptions := s.exceptions + 1 }
        [.load f.call (.installed f.number s.now document),
          .ended f.call s.now ((s.client.install s.now keys).classify lib f.call.kid s.exceptions)]
  | fail {id : Nat} {f : Flight τ} {got : Except LibraryExn Response} {exn : Exn}
      (found : s.flight? id = some f) (fetched : fetch lib s.client.url got = .error exn) :
      Move lib s (.receive id got)
        { s.land id with
          client := s.client.recordFailure ⟨s.exceptions, exn, none⟩
          exceptions := s.exceptions + 1 }
        [.load f.call (.failed f.number ⟨s.exceptions, exn, none⟩),
          .ended f.call s.now ((s.client.recordFailure ⟨s.exceptions, exn, none⟩).fallBack
            f.call.kid ⟨s.exceptions, exn, none⟩)]
  | abort {id : Nat} {f : Flight τ} (found : s.flight? id = some f) :
      Move lib s (.abort id)
        { s.land id with client := s.client.abortLoad, exceptions := s.exceptions + 1 }
        [.load f.call (.aborted f.number), .ended f.call s.now .cancelled]

variable {lib : Library} {s t : Sys τ} {a : Action τ} {es : List (Event τ)}

/-- A first segment that the fresh cache cannot answer. -/
private theorem move_of_miss {kid : String} {tag : τ}
    (miss : s.client.lookup kid = none ∨ s.client.isStale s.now = true)
    (h : { s with calls := s.calls + 1 }.settle ⟨s.calls, kid, tag⟩ [.called ⟨s.calls, kid, tag⟩]
      (if s.client.lock.locked || s.client.shouldAttemptFetch s.now kid then
        s.client.attemptFetch lib s.now ⟨s.calls, kid, tag⟩ s.exceptions
      else .finished s.client (s.client.classify lib kid s.exceptions)) = (t, es)) :
    Move lib s (.call kid tag) t es := by
  by_cases hneeds : (s.client.lock.locked || s.client.shouldAttemptFetch s.now kid) = true
  · rw [if_pos hneeds] at h
    cases hlock : s.client.lock.acquire? with
    | none =>
        simp only [JwksClient.attemptFetch, hlock, Sys.settle, List.cons_append, List.nil_append,
          Prod.mk.injEq] at h
        obtain ⟨rfl, rfl⟩ := h
        exact .queue hlock miss (by simpa using hneeds)
    | some lock =>
        -- A lock just taken was free, so the attempt was due when it was tested.
        have hfree := (Lock.acquire?_eq_some_iff.mp hlock).1
        have needed : s.client.shouldAttemptFetch s.now kid = true := by
          simpa [hfree] using hneeds
        simp only [JwksClient.attemptFetch, hlock, JwksClient.underLock,
          JwksClient.shouldAttemptFetch_lock, needed, if_true, Sys.settle, Prod.mk.injEq] at h
        obtain ⟨rfl, rfl⟩ := h
        exact .send (.free hlock miss) needed
  · rw [if_neg hneeds] at h
    simp only [Sys.settle, List.cons_append, List.nil_append, Prod.mk.injEq] at h
    obtain ⟨rfl, rfl⟩ := h
    simp only [Bool.not_eq_true, Bool.or_eq_false_iff] at hneeds
    have window : s.client.mayRefetch s.now = false := by
      rcases miss with hmiss | hmiss <;>
        simpa [JwksClient.shouldAttemptFetch, hmiss] using hneeds.2
    exact .throttled hneeds.1 miss window

/-- Every enabled step is one of the moves. -/
theorem Move.of_step (h : Sys.step lib s a = some (t, es)) : Move lib s a t es := by
  cases a with
  | advance time =>
      by_cases later : s.now ≤ time
      · simp only [Sys.step, later, if_true, Option.some.injEq, Prod.mk.injEq] at h
        obtain ⟨rfl, rfl⟩ := h
        exact .advance later
      · simp [Sys.step, later] at h
  | call kid tag =>
      simp only [Sys.step, Option.some.injEq] at h
      cases hkey : s.client.lookup kid with
      | none =>
          simp only [JwksClient.getKey, hkey] at h
          exact move_of_miss (.inl hkey) h
      | some key =>
          cases hstale : s.client.isStale s.now with
          | true =>
              simp only [JwksClient.getKey, hkey, hstale] at h
              exact move_of_miss (.inr hstale) h
          | false =>
              simp only [JwksClient.getKey, hkey, hstale, Sys.settle, List.cons_append,
                List.nil_append, Prod.mk.injEq] at h
              obtain ⟨rfl, rfl⟩ := h
              exact .hit hkey hstale
  | wake id =>
      cases found : s.client.lock.find? id with
      | none => simp [Sys.step, found] at h
      | some w =>
          cases future : w.future with
          | pending => simp [Sys.step, found, future] at h
          | woken =>
              simp only [Sys.step, found, future, Option.some.injEq, JwksClient.underLock,
                JwksClient.shouldAttemptFetch_lock] at h
              cases needed : s.client.shouldAttemptFetch s.now w.task.kid with
              | true =>
                  simp only [needed, if_true, Sys.settle, Prod.mk.injEq] at h
                  obtain ⟨rfl, rfl⟩ := h
                  exact .send (.woken found future) needed
              | false =>
                  simp only [needed, Bool.false_eq_true, if_false, Sys.settle, List.nil_append,
                    Prod.mk.injEq] at h
                  obtain ⟨rfl, rfl⟩ := h
                  exact .recheck found future needed
          | cancelled =>
              simp only [Sys.step, found, future, Option.some.injEq, Sys.settle, List.nil_append,
                Prod.mk.injEq] at h
              obtain ⟨rfl, rfl⟩ := h
              exact .withdraw found (.inl future)
          | wokenCancelled =>
              simp only [Sys.step, found, future, Option.some.injEq, Sys.settle, List.nil_append,
                Prod.mk.injEq] at h
              obtain ⟨rfl, rfl⟩ := h
              exact .withdraw found (.inr future)
  | cancel id =>
      cases found : s.client.lock.find? id with
      | none => simp [Sys.step, found] at h
      | some w =>
          simp only [Sys.step, found, Option.some.injEq, Prod.mk.injEq] at h
          obtain ⟨rfl, rfl⟩ := h
          exact .cancel found
  | receive id got =>
      cases found : s.flight? id with
      | none => simp [Sys.step, found] at h
      | some f =>
          simp only [Sys.step, found, Option.some.injEq, Sys.received] at h
          cases fetched : fetch lib s.client.url got with
          | ok result =>
              obtain ⟨document, keys⟩ := result
              have fetched' : fetch lib (s.land id).client.url got = .ok (document, keys) := fetched
              simp only [fetched', Sys.settle, List.cons_append, List.nil_append,
                Prod.mk.injEq] at h
              obtain ⟨rfl, rfl⟩ := h
              exact .install found fetched
          | error exn =>
              have fetched' : fetch lib (s.land id).client.url got = .error exn := fetched
              simp only [fetched', Sys.settle, List.cons_append, List.nil_append,
                Prod.mk.injEq] at h
              obtain ⟨rfl, rfl⟩ := h
              exact .fail found fetched
  | abort id =>
      cases found : s.flight? id with
      | none => simp [Sys.step, found] at h
      | some f =>
          simp only [Sys.step, found, Option.some.injEq, Sys.settle, List.cons_append,
            List.nil_append, Prod.mk.injEq] at h
          obtain ⟨rfl, rfl⟩ := h
          exact .abort found

end Steps
end MestoryCore.Auth
