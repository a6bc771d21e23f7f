import MestoryCore.Asyncio.Coroutine
import Mathlib.Data.List.Monad

/-!
# Coroutines that follow a machine

A machine says in each of its states which operation is awaited, or with which
result it has ended, and moves on with an answer. A coroutine follows a machine
when it awaits what the machine awaits, answer by answer, and writes lines only
after the last answer. `Q` says which lines stand before which result.

A coroutine that follows a machine has no state of its own: what it awaits is
read off the answers it has got.
-/

namespace Asyncio

/-- What is awaited, or the result. -/
inductive Status (Op Exn α : Type) where
  | awaiting (op : Op)
  | ended (result : Except Exn α)

structure Machine (Op : Type) (Reply : Op → Type) (Exn α : Type) where
  State : Type
  Answer : Type
  /-- An outcome as the machine sees it. -/
  answer : (op : Op) → Except Exn (Reply op) → Answer
  status : State → Status Op Exn α
  next : State → Answer → Option State

variable {Op : Type} {Reply : Op → Type} {Line Exn α : Type}

namespace Coroutine

/-- The status of a coroutine that has no line to write. -/
def status? : Coroutine Op Reply Line Exn α → Option (Status Op Exn α)
  | .done result => some (.ended result)
  | .log _ _ => none
  | .await op _ => some (.awaiting op)

/-- Code that is followed by more code writes its own lines first. -/
theorem settle_andThen {c : Coroutine Op Reply Line Exn α}
    {k : Except Exn α → Coroutine Op Reply Line Exn α} {lines : List Line}
    {result : Except Exn α} (h : c.settle = (lines, .done result)) :
    (c.andThen k).settle = (lines ++ (k result).settle.1, (k result).settle.2) := by
  induction c generalizing lines with
  | done own =>
      obtain ⟨rfl, hown⟩ := Prod.mk.inj h
      cases hown
      rfl
  | log line next ih =>
      obtain ⟨rfl, hnext⟩ := Prod.mk.inj h
      have rest := ih (Prod.ext rfl hnext)
      simp only [andThen, settle, rest, List.cons_append]
  | await op next => cases (Prod.mk.inj h).2

end Coroutine

namespace Machine

variable (m : Machine Op Reply Exn α)

/-- The state after some answers. -/
def run (s : m.State) (answers : List m.Answer) : Option m.State := answers.foldlM m.next s

theorem run_snoc (s : m.State) (answers : List m.Answer) (answer : m.Answer) :
    m.run s (answers ++ [answer]) = (m.run s answers).bind fun t => m.next t answer := by
  simp [run, List.foldlM_append]

/-- `c` follows the machine from the state `s`. -/
def Follows (may : (op : Op) → Except Exn (Reply op) → Prop)
    (Q : Except Exn α → List Line → Prop) : m.State → Coroutine Op Reply Line Exn α → Prop
  | s, .done result => m.status s = .ended result ∧ Q result []
  | s, .log line next => ∃ result lines, m.status s = .ended result ∧
      (Coroutine.log line next).settle = (lines, .done result) ∧ Q result lines
  | s, .await op next => m.status s = .awaiting op ∧ ∀ outcome, may op outcome →
      ∃ t, m.next s (m.answer op outcome) = some t ∧ Follows may Q t (next outcome)

/-- `c` follows the machine from the state `s`, and its lines are written. -/
def At (may : (op : Op) → Except Exn (Reply op) → Prop)
    (Q : Except Exn α → List Line → Prop) (s : m.State) :
    Coroutine Op Reply Line Exn α → Prop
  | .done result => m.status s = .ended result
  | .log _ _ => False
  | .await op next => m.Follows may Q s (.await op next)

/-- The lines that may be written in a state: those before its result, when it has one. -/
def Writes (Q : Except Exn α → List Line → Prop) (s : m.State) (lines : List Line) : Prop :=
  match m.status s with
  | .awaiting _ => lines = []
  | .ended result => Q result lines

variable {m}

theorem run_snoc_eq_some_iff {s u : m.State} {answers : List m.Answer} {answer : m.Answer} :
    m.run s (answers ++ [answer]) = some u ↔
      ∃ t, m.run s answers = some t ∧ m.next t answer = some u := by
  rw [run_snoc, Option.bind_eq_some_iff]

variable {may : (op : Op) → Except Exn (Reply op) → Prop}
variable {Q Q' : Except Exn α → List Line → Prop} {s : m.State}
variable {c : Coroutine Op Reply Line Exn α}

theorem At.status?_eq (h : m.At may Q s c) : c.status? = some (m.status s) := by
  cases c with
  | done result => exact congrArg some h.symm
  | log line next => exact h.elim
  | await op next => exact congrArg some h.1.symm

/-- An answer moves the machine to a state that the code goes on from. -/
theorem At.resume {op : Op} {next : Except Exn (Reply op) → Coroutine Op Reply Line Exn α}
    {outcome : Except Exn (Reply op)} (h : m.At may Q s (.await op next))
    (allowed : may op outcome) :
    ∃ t, m.next s (m.answer op outcome) = some t ∧ m.Follows may Q t (next outcome) :=
  h.2 outcome allowed

theorem Follows.of_ended {lines : List Line} {result : Except Exn α}
    (status : m.status s = .ended result) (settled : c.settle = (lines, .done result))
    (post : Q result lines) : m.Follows may Q s c := by
  cases c with
  | done own =>
      obtain ⟨rfl, hown⟩ := Prod.mk.inj settled
      cases hown
      exact ⟨status, post⟩
  | log line next => exact ⟨result, lines, status, settled, post⟩
  | await op next => cases (Prod.mk.inj settled).2

/-- The lines up to the next await are those of the state. -/
theorem Follows.settle (h : m.Follows may Q s c) :
    m.At may Q s c.settle.2 ∧ m.Writes Q s c.settle.1 := by
  cases c with
  | done result =>
      obtain ⟨status, post⟩ := h
      refine ⟨status, ?_⟩
      rw [Writes, status]
      exact post
  | log line next =>
      obtain ⟨result, lines, status, settled, post⟩ := h
      rw [settled, Writes, status]
      exact ⟨status, post⟩
  | await op next =>
      refine ⟨h, ?_⟩
      rw [Writes, h.1]
      rfl

/-- Code that only writes lines and keeps the result can come after the end. -/
theorem Follows.andThen {k : Except Exn α → Coroutine Op Reply Line Exn α}
    (first : m.Follows may Q s c)
    (second : ∀ result lines, Q result lines →
      ∃ more, (k result).settle = (more, .done result) ∧ Q' result (lines ++ more)) :
    m.Follows may Q' s (c.andThen k) := by
  have ended {c : Coroutine Op Reply Line Exn α} {s : m.State} {result : Except Exn α}
      {lines : List Line} (status : m.status s = .ended result)
      (settled : c.settle = (lines, .done result)) (post : Q result lines) :
      m.Follows may Q' s (c.andThen k) := by
    obtain ⟨more, after, post⟩ := second result lines post
    refine .of_ended status ?_ post
    rw [Coroutine.settle_andThen settled, after]
  induction c generalizing s with
  | done result => exact ended first.1 rfl first.2
  | log line next =>
      obtain ⟨result, lines, status, settled, post⟩ := first
      exact ended status settled post
  | await op next ih =>
      refine ⟨first.1, ?_⟩
      intro outcome allowed
      obtain ⟨t, hnext, follows⟩ := first.2 outcome allowed
      exact ⟨t, hnext, ih outcome follows⟩

end Machine
end Asyncio
