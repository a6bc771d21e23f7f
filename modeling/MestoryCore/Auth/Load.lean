import MestoryCore.Auth.Client
import MestoryCore.Transition.Run
import Mathlib.Tactic.Linarith

/-!
# The loads of a client, without its callers

The purpose of the client, apart from who waits for whom: at most one load at a
time, a new one only when the throttle window of the last attempt has passed,
and the cache replaced by a successful load alone. `Loads` has the fields that
a load reads or writes, and five steps. The system of concurrent calls refines
it, so what is proved here about a history of loads holds of every schedule.
-/

namespace MestoryCore.Auth

open Python Transition

/-- What happens to the request with a number. -/
inductive LoadEvent where
  | sent (number : Nat) (mark : Time)
  | installed (number : Nat) (time : Time) (document : Json)
  | failed (number : Nat) (error : Raised)
  | aborted (number : Nat)

/-- How an attempt ended. -/
inductive Result where
  | succeeded
  | failed
  | cancelled
  deriving DecidableEq

namespace LoadEvent

/-- The number and the mark of an attempt. -/
@[simp] def mark? : LoadEvent → Option (Nat × Time)
  | .sent number mark => some (number, mark)
  | _ => none

/-- The request, the time, and the document of a successful load. -/
@[simp] def install? : LoadEvent → Option (Nat × Time × Json)
  | .installed number time document => some (number, time, document)
  | _ => none

/-- A load that ran to completion, with its exception if it failed. -/
@[simp] def completion? : LoadEvent → Option (Option Raised)
  | .installed _ _ _ => some none
  | .failed _ error => some (some error)
  | _ => none

/-- The end of an attempt, cancelled ones included. -/
@[simp] def result? : LoadEvent → Option (Nat × Result)
  | .sent _ _ => none
  | .installed number _ _ => some (number, .succeeded)
  | .failed number _ => some (number, .failed)
  | .aborted number => some (number, .cancelled)

end LoadEvent

/-- The attempts of a history, in the order of their requests. -/
def marks (h : List LoadEvent) : List (Nat × Time) := h.filterMap LoadEvent.mark?

/-- The successful loads of a history, in the order of their installation. -/
def installs (h : List LoadEvent) : List (Nat × Time × Json) := h.filterMap LoadEvent.install?

@[simp] theorem marks_nil : marks [] = [] := rfl

@[simp] theorem marks_append (h h' : List LoadEvent) : marks (h ++ h') = marks h ++ marks h' :=
  List.filterMap_append

@[simp] theorem marks_singleton (e : LoadEvent) : marks [e] = e.mark?.toList := by
  cases e <;> rfl

@[simp] theorem installs_nil : installs [] = [] := rfl

@[simp] theorem installs_append (h h' : List LoadEvent) :
    installs (h ++ h') = installs h ++ installs h' :=
  List.filterMap_append

@[simp] theorem installs_singleton (e : LoadEvent) : installs [e] = e.install?.toList := by
  cases e <;> rfl

/-- The exception of the last load that ran to completion, if that load failed. -/
def lastFailure (h : List LoadEvent) : Option Raised := (latest LoadEvent.completion? h).join

/-- The state of a client's loads. -/
structure Loads where
  now : Time
  keys : Keys := ∅
  fetchedAt : Option Time := none
  lastAttemptAt : Option Time := none
  lastError : Option Raised := none
  inFlight : Option Nat := none
  requests : Nat := 0

inductive LoadAction where
  | advance (time : Time)
  | send
  | install (document : Json)
  | fail (error : Raised)
  | abort

namespace Loads

/-- The throttle window of the last attempt has passed. -/
def mayRefetch (interval : Time) (l : Loads) : Bool :=
  match l.lastAttemptAt with
  | none => true
  | some mark => interval ≤ l.now - mark

def step (lib : Library) (url : String) (interval : Time) : Step Loads LoadAction LoadEvent
  | l, .advance time => if l.now ≤ time then some ({ l with now := time }, []) else none
  | l, .send =>
      if l.inFlight = none ∧ l.mayRefetch interval then
        some ({ l with
          lastAttemptAt := some l.now
          inFlight := some l.requests
          requests := l.requests + 1 }, [.sent l.requests l.now])
      else none
  | l, .install document =>
      match l.inFlight, parseKeys lib url document with
      | some number, .ok keys =>
          some ({ l with keys, fetchedAt := some l.now, lastError := none, inFlight := none },
            [.installed number l.now document])
      | _, _ => none
  | l, .fail error =>
      l.inFlight.map fun number =>
        ({ l with lastError := some error, inFlight := none }, [.failed number error])
  | l, .abort => l.inFlight.map fun number => ({ l with inFlight := none }, [.aborted number])

/-- The steps of the loads, one by one. -/
inductive Move (lib : Library) (url : String) (interval : Time) (l : Loads) :
    Loads → List LoadEvent → Prop where
  | advance {time : Time} (later : l.now ≤ time) :
      Move lib url interval l { l with now := time } []
  | send (idle : l.inFlight = none) (window : l.mayRefetch interval = true) :
      Move lib url interval l
        { l with
          lastAttemptAt := some l.now
          inFlight := some l.requests
          requests := l.requests + 1 }
        [.sent l.requests l.now]
  | install {number : Nat} {document : Json} {keys : Keys} (flying : l.inFlight = some number)
      (parsed : parseKeys lib url document = .ok keys) :
      Move lib url interval l
        { l with keys, fetchedAt := some l.now, lastError := none, inFlight := none }
        [.installed number l.now document]
  | fail {number : Nat} {error : Raised} (flying : l.inFlight = some number) :
      Move lib url interval l { l with lastError := some error, inFlight := none }
        [.failed number error]
  | abort {number : Nat} (flying : l.inFlight = some number) :
      Move lib url interval l { l with inFlight := none } [.aborted number]

section Invariant

variable {lib : Library} {url : String} {interval : Time} {l l' : Loads} {h h' : List LoadEvent}

theorem Move.of_step {a : LoadAction} (hstep : step lib url interval l a = some (l', h')) :
    Move lib url interval l l' h' := by
  cases a with
  | advance time =>
      obtain ⟨later, rfl, rfl⟩ : l.now ≤ time ∧ { l with now := time } = l' ∧ [] = h' := by
        simpa [step] using hstep
      exact .advance later
  | send =>
      simp only [step, Option.ite_none_right_eq_some, Option.some.injEq, Prod.mk.injEq] at hstep
      obtain ⟨⟨idle, window⟩, rfl, rfl⟩ := hstep
      exact .send idle window
  | install document =>
      simp only [step] at hstep
      split at hstep
      · rename_i number keys flying parsed
        simp only [Option.some.injEq, Prod.mk.injEq] at hstep
        obtain ⟨rfl, rfl⟩ := hstep
        exact .install flying parsed
      · cases hstep
  | fail error =>
      obtain ⟨number, flying, rfl, rfl⟩ : ∃ number, l.inFlight = some number ∧
          { l with lastError := some error, inFlight := none } = l' ∧
          [.failed number error] = h' := by
        simpa [step] using hstep
      exact .fail flying
  | abort =>
      obtain ⟨number, flying, rfl, rfl⟩ : ∃ number, l.inFlight = some number ∧
          { l with inFlight := none } = l' ∧ [.aborted number] = h' := by
        simpa [step] using hstep
      exact .abort flying

/-- The cache is the parse of the last installed document, and the remembered
error is that of the last completed load. -/
structure Cached (lib : Library) (url : String) (h : List LoadEvent) (l : Loads) : Prop where
  document : match latest LoadEvent.install? h with
    | none => l.keys = ∅ ∧ l.fetchedAt = none
    | some (_, time, document) =>
        parseKeys lib url document = .ok l.keys ∧ l.fetchedAt = some time
  error : l.lastError = lastFailure h

/-- The times of a load lie in order on the clock, and an attempt that is over
has its end in the history. -/
structure Timed (h : List LoadEvent) (l : Loads) : Prop where
  mark : l.lastAttemptAt = (latest LoadEvent.mark? h).map Prod.snd
  number : ∀ n m, latest LoadEvent.mark? h = some (n, m) → l.requests = n + 1
  attempted : ∀ m, l.lastAttemptAt = some m → m ≤ l.now
  fetched : ∀ t, l.fetchedAt = some t → t ≤ l.now
  flying : ∀ n, l.inFlight = some n → l.requests = n + 1 ∧
    ∃ m, l.lastAttemptAt = some m ∧ ∀ t, l.fetchedAt = some t → t ≤ m
  settled : l.inFlight = none → ∀ n m, latest LoadEvent.mark? h = some (n, m) →
    ∃ r, latest LoadEvent.result? h = some (n, r) ∧
      (r = .succeeded → ∃ t, l.fetchedAt = some t ∧ m ≤ t)

/-- Requests are numbered as they are sent, are spaced by the interval, and
install their documents in the same order. -/
structure Ordered (interval : Time) (h : List LoadEvent) (l : Loads) : Prop where
  numbers : (marks h).map Prod.fst = List.range l.requests
  spaced : (marks h).Pairwise fun p q => p.2 + interval ≤ q.2
  last : ∀ p ∈ marks h, ∃ m, l.lastAttemptAt = some m ∧ p.2 ≤ m
  attempted : ∀ m, l.lastAttemptAt = some m → m ≤ l.now
  flying : ∀ n, l.inFlight = some n → l.requests = n + 1
  installed : (installs h).Pairwise fun p q => p.1 < q.1
  landed : ∀ p ∈ installs h, p.1 < l.requests ∧
    ∀ n, l.inFlight = some n → p.1 < n

theorem Cached.move (inv : Cached lib url h l) (m : Move lib url interval l l' h') :
    Cached lib url (h ++ h') l' := by
  obtain ⟨document, error⟩ := inv
  cases m with
  | advance later => exact ⟨by simpa using document, by simpa using error⟩
  | send idle window =>
      exact ⟨by simpa using document, by simpa [lastFailure] using error⟩
  | install flying parsed => exact ⟨by simpa using parsed, by simp [lastFailure]⟩
  | fail flying => exact ⟨by simpa using document, by simp [lastFailure]⟩
  | abort flying =>
      exact ⟨by simpa using document, by simpa [lastFailure] using error⟩

/-- The attempt in flight is the last one. -/
theorem Timed.last_of_flying (inv : Timed h l) {landing n : Nat} {m : Time}
    (flight : l.inFlight = some landing) (hlast : latest LoadEvent.mark? h = some (n, m)) :
    n = landing := by
  have hrequests := inv.number n m hlast
  have hlanding := (inv.flying landing flight).1
  omega

/-- The last attempt is in flight since some time after the last installation. -/
theorem Timed.mark_of_flying (inv : Timed h l) {landing : Nat}
    (flight : l.inFlight = some landing) :
    ∃ m, latest LoadEvent.mark? h = some (landing, m) ∧ ∀ t, l.fetchedAt = some t → t ≤ m := by
  obtain ⟨_, m, hattempt, hlater⟩ := inv.flying landing flight
  have hmark : (latest LoadEvent.mark? h).map Prod.snd = some m := inv.mark.symm.trans hattempt
  obtain ⟨⟨n, _⟩, hlast, rfl⟩ := Option.map_eq_some_iff.mp hmark
  obtain rfl := inv.last_of_flying flight hlast
  exact ⟨_, hlast, hlater⟩

theorem Timed.move (inv : Timed h l) (m : Move lib url interval l l' h') :
    Timed (h ++ h') l' := by
  have landed := @inv.last_of_flying
  obtain ⟨mark, number, attempted, fetched, flying, settled⟩ := inv
  cases m with
  | advance later =>
      refine ⟨by simpa using mark, by simpa using number, ?_, ?_, flying, by simpa using settled⟩
      · intro m hm
        exact (attempted m hm).trans later
      · intro t ht
        exact (fetched t ht).trans later
  | send idle window =>
      refine ⟨by simp, ?_, ?_, fetched, ?_, by simp⟩
      · intro n m hlast
        obtain ⟨rfl, rfl⟩ : l.requests = n ∧ l.now = m := by simpa using hlast
        rfl
      · intro m hm
        obtain rfl : l.now = m := by simpa using hm
        exact le_rfl
      · intro n hn
        obtain rfl : l.requests = n := by simpa using hn
        exact ⟨rfl, l.now, rfl, fetched⟩
  | install flight parsed =>
      refine ⟨by simpa using mark, by simpa using number, attempted, ?_, by simp, ?_⟩
      · intro t ht
        obtain rfl : l.now = t := by simpa using ht
        exact le_rfl
      · intro _ n m hlast
        have hlast' : latest LoadEvent.mark? h = some (n, m) := by simpa using hlast
        obtain rfl := landed flight hlast'
        refine ⟨.succeeded, by simp, fun _ => ⟨l.now, rfl, ?_⟩⟩
        exact attempted m (by simp [mark, hlast'])
  | fail flight =>
      refine ⟨by simpa using mark, by simpa using number, attempted, fetched, by simp, ?_⟩
      intro _ n m hlast
      obtain rfl := landed flight (by simpa using hlast)
      exact ⟨.failed, by simp, by simp⟩
  | abort flight =>
      refine ⟨by simpa using mark, by simpa using number, attempted, fetched, by simp, ?_⟩
      intro _ n m hlast
      obtain rfl := landed flight (by simpa using hlast)
      exact ⟨.cancelled, by simp, by simp⟩

theorem Ordered.move (inv : Ordered interval h l) (m : Move lib url interval l l' h') :
    Ordered interval (h ++ h') l' := by
  obtain ⟨numbers, spaced, last, attempted, flying, installed, landed⟩ := inv
  cases m with
  | advance later =>
      refine ⟨by simpa using numbers, by simpa using spaced, by simpa using last, ?_, flying,
        by simpa using installed, by simpa using landed⟩
      intro m hm
      exact (attempted m hm).trans later
  | send idle window =>
      refine ⟨by simp [numbers, List.range_succ], ?_, ?_, ?_, ?_, by simpa using installed, ?_⟩
      · -- Every earlier mark is at most the last one, whose window has passed.
        have hafter : ∀ p ∈ marks h, p.2 + interval ≤ l.now := by
          intro p hp
          obtain ⟨m, hm, hpm⟩ := last p hp
          have hwindow : interval ≤ l.now - m := by simpa [mayRefetch, hm] using window
          linarith
        rw [marks_append, List.pairwise_append]
        exact ⟨spaced, by simp, by simpa using fun n m hp => hafter (n, m) hp⟩
      · intro p hp
        refine ⟨l.now, rfl, ?_⟩
        have hp' : p ∈ marks h ∨ p = (l.requests, l.now) := by simpa using hp
        rcases hp' with hp' | rfl
        · obtain ⟨m, hm, hpm⟩ := last p hp'
          exact hpm.trans (attempted m hm)
        · exact le_rfl
      · intro m hm
        obtain rfl : l.now = m := by simpa using hm
        exact le_rfl
      · intro n hn
        obtain rfl : l.requests = n := by simpa using hn
        rfl
      · intro p hp
        have hp' := landed p (by simpa using hp)
        refine ⟨Nat.lt_succ_of_lt hp'.1, ?_⟩
        intro n hn
        obtain rfl : l.requests = n := by simpa using hn
        exact hp'.1
  | @install landing document keys flight parsed =>
      refine ⟨by simpa using numbers, by simpa using spaced, by simpa using last, attempted,
        by simp, ?_, ?_⟩
      · rw [installs_append, List.pairwise_append]
        exact ⟨installed, by simp, by simpa using fun n t d hp => (landed (n, t, d) hp).2 _ flight⟩
      · intro p hp
        refine ⟨?_, by simp⟩
        have hp' : p ∈ installs h ∨ p = (landing, l.now, document) := by simpa using hp
        rcases hp' with hp' | rfl
        · exact (landed p hp').1
        · have hlanding := flying landing flight
          change landing < l.requests
          omega
  | fail flight =>
      exact ⟨by simpa using numbers, by simpa using spaced, by simpa using last, attempted, by simp,
        by simpa using installed, fun p hp => ⟨(landed p (by simpa using hp)).1, by simp⟩⟩
  | abort flight =>
      exact ⟨by simpa using numbers, by simpa using spaced, by simpa using last, attempted, by simp,
        by simpa using installed, fun p hp => ⟨(landed p (by simpa using hp)).1, by simp⟩⟩

/-- The three invariants hold along every history of loads. -/
theorem inv_of_run {now : Time} {as : List LoadAction}
    (run : Run (step lib url interval) { now } as h l) :
    Cached lib url h l ∧ Timed h l ∧ Ordered interval h l := by
  refine run.invariant
    (I := fun h l => Cached lib url h l ∧ Timed h l ∧ Ordered interval h l) ⟨?_, ?_, ?_⟩ ?_
  · exact ⟨by simp, rfl⟩
  · exact ⟨rfl, by simp, by simp, by simp, by simp, by simp⟩
  · exact ⟨rfl, by simp, by simp, by simp, by simp, by simp, by simp⟩
  · rintro h l a l' h' _ ⟨cached, timed, ordered⟩ hstep
    have m := Move.of_step hstep
    exact ⟨cached.move m, timed.move m, ordered.move m⟩

end Invariant
end Loads
end MestoryCore.Auth
