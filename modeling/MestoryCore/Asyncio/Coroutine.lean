import MestoryCore.Python.Except

/-!
# Coroutines and their contracts

A coroutine ends with a result or an exception, writes a line to the log, or
awaits an operation and goes on with what that operation ends with. Between two
awaits it runs uninterrupted.

A contract is about one coroutine and every sequence of outcomes its operations
may have. It keeps the history of the outcomes and of the lines written: `I`
holds of the history at every point, and `Q` of the history and the result at
the end. The operations, their replies, the lines, and the exceptions are
parameters; the system that runs many coroutines at once is not part of this
file, and uses a contract one step at a time.
-/

namespace Asyncio

inductive Coroutine (Op : Type) (Reply : Op → Type) (Line Exn α : Type) where
  | done (result : Except Exn α)
  | log (line : Line) (next : Coroutine Op Reply Line Exn α)
  | await (op : Op) (next : Except Exn (Reply op) → Coroutine Op Reply Line Exn α)

/-- What a coroutine sees and does: an operation that ended, or a line written. -/
inductive Effect (Op : Type) (Reply : Op → Type) (Line Exn : Type) where
  | answered (op : Op) (outcome : Except Exn (Reply op))
  | logged (line : Line)

namespace Coroutine

variable {Op : Type} {Reply : Op → Type} {Line Exn α β : Type}

/-- Run `k` with the outcome of `c`, a result or an exception. -/
def andThen (c : Coroutine Op Reply Line Exn α)
    (k : Except Exn α → Coroutine Op Reply Line Exn β) : Coroutine Op Reply Line Exn β :=
  match c with
  | .done result => k result
  | .log line next => .log line (next.andThen k)
  | .await op next => .await op fun outcome => (next outcome).andThen k

def raise (exn : Exn) : Coroutine Op Reply Line Exn α := .done (.error exn)

instance : Monad (Coroutine Op Reply Line Exn) where
  pure a := .done (.ok a)
  bind c f := c.andThen fun
    | .ok a => f a
    | .error exn => raise exn

def perform (op : Op) : Coroutine Op Reply Line Exn (Reply op) := .await op .done

def write (line : Line) : Coroutine Op Reply Line Exn Unit := .log line (.done (.ok ()))

/-- `async with`: `leave` runs however the body ends, and its exception replaces
the outcome of the body. Nothing is left when `enter` raises. -/
def asyncWith (enter : Coroutine Op Reply Line Exn α)
    (leave : α → Coroutine Op Reply Line Exn Unit)
    (body : α → Coroutine Op Reply Line Exn β) : Coroutine Op Reply Line Exn β := do
  let resource ← enter
  (body resource).andThen fun result => do
    leave resource
    .done result

/-- The lines written up to the next await or the end, and the code from there. -/
def settle : Coroutine Op Reply Line Exn α → List Line × Coroutine Op Reply Line Exn α
  | .log line next => (line :: next.settle.1, next.settle.2)
  | .done result => ([], .done result)
  | .await op next => ([], .await op next)

end Coroutine

open Coroutine

variable {Op : Type} {Reply : Op → Type} {Line Exn α β : Type}

/-- `c`, started after the history `h`, keeps `I` and ends with `Q`, whatever
outcomes its operations have that `may` allows. -/
def Contract (may : (op : Op) → Except Exn (Reply op) → Prop)
    (I : List (Effect Op Reply Line Exn) → Prop)
    (Q : List (Effect Op Reply Line Exn) → Except Exn α → Prop)
    (h : List (Effect Op Reply Line Exn)) : Coroutine Op Reply Line Exn α → Prop
  | .done result => I h ∧ Q h result
  | .log line next => I h ∧ Contract may I Q (h ++ [.logged line]) next
  | .await op next => I h ∧
      ∀ outcome, may op outcome → Contract may I Q (h ++ [.answered op outcome]) (next outcome)

namespace Contract

variable {may : (op : Op) → Except Exn (Reply op) → Prop}
variable {I : List (Effect Op Reply Line Exn) → Prop}
variable {R : List (Effect Op Reply Line Exn) → Except Exn α → Prop}
variable {Q : List (Effect Op Reply Line Exn) → Except Exn β → Prop}
variable {h : List (Effect Op Reply Line Exn)} {c : Coroutine Op Reply Line Exn α}

theorem now (contract : Contract may I R h c) : I h := by
  cases c <;> exact contract.1

theorem result {outcome : Except Exn α} (contract : Contract may I R h (.done outcome)) :
    R h outcome :=
  contract.2

theorem done {outcome : Except Exn α} (inv : I h) (post : R h outcome) :
    Contract may I R h (.done outcome) :=
  ⟨inv, post⟩

/-- An operation that ends moves the contract to the code that goes on. -/
theorem resume {op : Op} {next : Except Exn (Reply op) → Coroutine Op Reply Line Exn α}
    {outcome : Except Exn (Reply op)} (contract : Contract may I R h (.await op next))
    (allowed : may op outcome) :
    Contract may I R (h ++ [.answered op outcome]) (next outcome) :=
  contract.2 outcome allowed

/-- Writing lines moves the contract to the code from the next await on. -/
theorem settle (contract : Contract may I R h c) :
    Contract may I R (h ++ c.settle.1.map .logged) c.settle.2 := by
  induction c generalizing h with
  | done | await => simpa [Coroutine.settle] using contract
  | log line next ih => simpa [Coroutine.settle] using ih contract.2

/-- The second coroutine starts where the first one ended. -/
theorem andThen {k : Except Exn α → Coroutine Op Reply Line Exn β}
    (first : Contract may I R h c)
    (second : ∀ h outcome, I h → R h outcome → Contract may I Q h (k outcome)) :
    Contract may I Q h (c.andThen k) := by
  induction c generalizing h with
  | done outcome => exact second h outcome first.1 first.2
  | log line next ih => exact ⟨first.1, ih first.2⟩
  | await op next ih => exact ⟨first.1, fun outcome allowed => ih outcome (first.2 outcome allowed)⟩

/-- A sequence goes on with a result and ends at an exception. -/
theorem bind {f : α → Coroutine Op Reply Line Exn β} (first : Contract may I R h c)
    (ok : ∀ h a, I h → R h (.ok a) → Contract may I Q h (f a))
    (error : ∀ h exn, I h → R h (.error exn) → Q h (.error exn)) :
    Contract may I Q h (c >>= f) := by
  apply first.andThen
  intro h outcome inv post
  cases outcome with
  | ok a => exact ok h a inv post
  | error exn => exact .done inv (error h exn inv post)

theorem perform {op : Op} {R : List (Effect Op Reply Line Exn) → Except Exn (Reply op) → Prop}
    (inv : I h)
    (post : ∀ outcome, may op outcome →
      I (h ++ [.answered op outcome]) ∧ R (h ++ [.answered op outcome]) outcome) :
    Contract may I R h (Coroutine.perform op) :=
  ⟨inv, post⟩

theorem write {line : Line} {R : List (Effect Op Reply Line Exn) → Except Exn Unit → Prop}
    (inv : I h) (after : I (h ++ [.logged line])) (post : R (h ++ [.logged line]) (.ok ())) :
    Contract may I R h (Coroutine.write line) :=
  ⟨inv, after, post⟩

/-- The body runs with the resource, and its outcome is the outcome of the
whole when leaving the resource ends normally. -/
theorem asyncWith {leave : α → Coroutine Op Reply Line Exn Unit}
    {body : α → Coroutine Op Reply Line Exn β}
    {S : α → List (Effect Op Reply Line Exn) → Except Exn β → Prop}
    (enter : Contract may I R h c)
    (refused : ∀ h exn, I h → R h (.error exn) → Q h (.error exn))
    (entered : ∀ h a, I h → R h (.ok a) → Contract may I (S a) h (body a))
    (left : ∀ h a outcome, I h → S a h outcome →
      Contract may I (fun h ended => ended = .ok () ∧ Q h outcome) h (leave a)) :
    Contract may I Q h (Coroutine.asyncWith c leave body) := by
  apply enter.bind _ refused
  intro h a inv post
  apply (entered h a inv post).andThen
  intro h outcome inv post
  apply (left h a outcome inv post).bind
  · rintro h _ inv ⟨_, post⟩
    exact .done inv post
  · rintro h exn _ ⟨hne, _⟩
    cases hne

end Contract
end Asyncio
