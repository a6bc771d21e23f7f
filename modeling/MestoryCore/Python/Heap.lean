import Mathlib.Data.Finmap
import Mathlib.Logic.Function.Basic
import Mathlib.Tactic.Common

/-!
# Exceptions as objects

An exception is an object on a heap. It has an identity, and raising it changes
it: its traceback grows by one entry in each frame that it appears in, at the
`raise` statement or at the call that raised it. A bare `raise` adds no entry.

`Code` is the body of a method. It reads and changes the heap and the object
`self`, and ends with a result or with the reference of a raised exception; what
it changed stays changed either way. A `Contract` fixes a bound `n`: the objects
below `n` are left as they are, so what is known of them survives the code. The
classes, the values, and the object `self` are parameters.
-/

namespace Python

/-- The identity of an object. -/
abbrev Ref := Nat

structure ExnObject (κ ν : Type) where
  cls : κ
  args : List ν
  attributes : Finmap fun _ : String => ν := ∅
  cause : Option Ref := none
  traceback : Nat := 0

/-- The objects that exist are those below `size`. -/
structure Heap (κ ν : Type) where
  objects : Ref → ExnObject κ ν
  size : Ref

namespace Heap

variable {κ ν : Type}

/-- A new object gets the reference `size`. -/
def alloc (h : Heap κ ν) (o : ExnObject κ ν) : Heap κ ν where
  objects := Function.update h.objects h.size o
  size := h.size + 1

def modify (h : Heap κ ν) (r : Ref) (f : ExnObject κ ν → ExnObject κ ν) : Heap κ ν :=
  { h with objects := Function.update h.objects r (f (h.objects r)) }

/-- An exception appears in the running frame. -/
def enterFrame (h : Heap κ ν) (exc : Ref) : Heap κ ν :=
  h.modify exc fun o => { o with traceback := o.traceback + 1 }

@[simp] theorem alloc_size (h : Heap κ ν) (o : ExnObject κ ν) : (h.alloc o).size = h.size + 1 :=
  rfl

@[simp] theorem alloc_objects {h : Heap κ ν} {r : Ref} (hr : r = h.size) (o : ExnObject κ ν) :
    (h.alloc o).objects r = o := by
  simp [alloc, hr]

@[simp] theorem modify_size (h : Heap κ ν) (r : Ref) (f : ExnObject κ ν → ExnObject κ ν) :
    (h.modify r f).size = h.size := rfl

@[simp] theorem modify_objects (h : Heap κ ν) (r : Ref) (f : ExnObject κ ν → ExnObject κ ν) :
    (h.modify r f).objects r = f (h.objects r) := by
  simp [modify]

@[simp] theorem enterFrame_size (h : Heap κ ν) (exc : Ref) : (h.enterFrame exc).size = h.size :=
  rfl

@[simp] theorem enterFrame_objects (h : Heap κ ν) (exc : Ref) :
    (h.enterFrame exc).objects exc =
      { h.objects exc with traceback := (h.objects exc).traceback + 1 } :=
  modify_objects h exc _

/-- The objects below `n` are in `h'` what they are in `h`. -/
structure Keeps (n : Ref) (h h' : Heap κ ν) : Prop where
  size_le : h.size ≤ h'.size
  objects_eq : ∀ r < n, h'.objects r = h.objects r

namespace Keeps

variable {n m : Ref} {h h' h'' : Heap κ ν}

@[refl] theorem refl (n : Ref) (h : Heap κ ν) : Keeps n h h := ⟨le_rfl, fun _ _ => rfl⟩

theorem trans (first : Keeps n h h') (second : Keeps n h' h'') : Keeps n h h'' :=
  ⟨first.size_le.trans second.size_le,
    fun r hr => (second.objects_eq r hr).trans (first.objects_eq r hr)⟩

theorem mono (keeps : Keeps n h h') (le : m ≤ n) : Keeps m h h' :=
  ⟨keeps.size_le, fun r hr => keeps.objects_eq r (hr.trans_le le)⟩

theorem alloc (le : n ≤ h.size) (o : ExnObject κ ν) : Keeps n h (h.alloc o) :=
  ⟨Nat.le_succ _, fun _ hr => Function.update_of_ne (hr.trans_le le).ne _ _⟩

theorem modify {r : Ref} (le : n ≤ r) (f : ExnObject κ ν → ExnObject κ ν) :
    Keeps n h (h.modify r f) :=
  ⟨le_rfl, fun _ hr => Function.update_of_ne (hr.trans_le le).ne _ _⟩

theorem enterFrame {exc : Ref} (le : n ≤ exc) : Keeps n h (h.enterFrame exc) :=
  modify le _

end Keeps

/-- The exception `r`, the one in its `__cause__`, and so on to one without. -/
inductive CauseChain (h : Heap κ ν) : Ref → List Ref → Prop where
  | last {r : Ref} : r < h.size → (h.objects r).cause = none → CauseChain h r [r]
  | next {r cause : Ref} {rs : List Ref} : r < h.size → (h.objects r).cause = some cause →
      CauseChain h cause rs → CauseChain h r (r :: rs)

theorem CauseChain.keeps {h h' : Heap κ ν} {r : Ref} {rs : List Ref} (chain : CauseChain h r rs)
    (keeps : Keeps h.size h h') : CauseChain h' r rs := by
  induction chain with
  | last bound root =>
      exact .last (bound.trans_le keeps.size_le) (keeps.objects_eq _ bound ▸ root)
  | next bound cause _ ih =>
      exact .next (bound.trans_le keeps.size_le) (keeps.objects_eq _ bound ▸ cause) ih

end Heap

/-- What a method can change: the heap, and the object it is a method of. -/
structure World (κ ν σ : Type) where
  heap : Heap κ ν
  self : σ

/-- The body of a method. -/
def Code (κ ν σ α : Type) := World κ ν σ → Except Ref α × World κ ν σ

namespace Code

variable {κ ν σ α β : Type}

instance : Monad (Code κ ν σ) where
  pure a := fun w => (.ok a, w)
  bind c f := fun w =>
    match c w with
    | (.ok a, w) => f a w
    | (.error exc, w) => (.error exc, w)

def self : Code κ ν σ σ := fun w => (.ok w.self, w)

def update (f : σ → σ) : Code κ ν σ Unit := fun w => (.ok (), { w with self := f w.self })

def new (o : ExnObject κ ν) : Code κ ν σ Ref :=
  fun w => (.ok w.heap.size, { w with heap := w.heap.alloc o })

def read (r : Ref) : Code κ ν σ (ExnObject κ ν) := fun w => (.ok (w.heap.objects r), w)

def modify (r : Ref) (f : ExnObject κ ν → ExnObject κ ν) : Code κ ν σ Unit :=
  fun w => (.ok (), { w with heap := w.heap.modify r f })

/-- `raise` without an exception, in a handler of `exc`. -/
def reraise (exc : Ref) : Code κ ν σ α := fun w => (.error exc, w)

/-- `raise exc`. -/
def raise (exc : Ref) : Code κ ν σ α :=
  fun w => (.error exc, { w with heap := w.heap.enterFrame exc })

/-- `raise exc from cause`. -/
def raiseFrom (exc cause : Ref) : Code κ ν σ α := do
  modify exc fun o => { o with cause := some cause }
  raise exc

/-- `try: c; except ...: handler`, with the test that the clause makes. -/
def tryExcept (c : Code κ ν σ α) (catches : ExnObject κ ν → Bool)
    (handler : Ref → Code κ ν σ α) : Code κ ν σ α := fun w =>
  match c w with
  | (.ok a, w) => (.ok a, w)
  | (.error exc, w) => if catches (w.heap.objects exc) then handler exc w else (.error exc, w)

/-- A call, in the frame of the caller. -/
def call (c : Code κ ν σ α) : Code κ ν σ α := tryExcept c (fun _ => true) raise

/-- `with`: `leave` changes the object however `c` ends. -/
def leaving (c : Code κ ν σ α) (leave : σ → σ) : Code κ ν σ α := fun w =>
  match c w with
  | (result, w) => (result, { w with self := leave w.self })

/-- `c` leaves the objects below `n` alone, and ends with `Q`. -/
def Contract (n : Ref) (w : World κ ν σ) (c : Code κ ν σ α)
    (Q : Except Ref α → World κ ν σ → Prop) : Prop :=
  w.heap.Keeps n (c w).2.heap ∧ Q (c w).1 (c w).2

namespace Contract

variable {n : Ref} {w : World κ ν σ}
variable {c : Code κ ν σ α} {Q R : Except Ref α → World κ ν σ → Prop}

theorem mono (contract : Contract n w c R)
    (post : ∀ result w', w.heap.Keeps n w'.heap → R result w' → Q result w') :
    Contract n w c Q :=
  ⟨contract.1, post _ _ contract.1 contract.2⟩

theorem pure {a : α} (post : Q (.ok a) w) : Contract n w (pure a) Q :=
  ⟨.refl n _, post⟩

/-- The second half of a sequence starts where the first half ended. -/
theorem bind {f : α → Code κ ν σ β} {Q : Except Ref β → World κ ν σ → Prop}
    (first : Contract n w c fun result w' =>
      match result with
      | .ok a => Contract n w' (f a) Q
      | .error exc => Q (.error exc) w') :
    Contract n w (c >>= f) Q := by
  obtain ⟨keeps, next⟩ := first
  simp only [Contract, Bind.bind]
  generalize c w = ended at keeps next
  obtain ⟨result, w'⟩ := ended
  cases result with
  | ok a => exact ⟨keeps.trans next.1, next.2⟩
  | error exc => exact ⟨keeps, next⟩

theorem self_bind {f : σ → Code κ ν σ α} (next : Contract n w (f w.self) Q) :
    Contract n w (Code.self >>= f) Q :=
  next

theorem update {f : σ → σ} {Q : Except Ref Unit → World κ ν σ → Prop}
    (post : Q (.ok ()) { w with self := f w.self }) : Contract n w (.update f) Q :=
  ⟨.refl n _, post⟩

theorem new {o : ExnObject κ ν} {Q : Except Ref Ref → World κ ν σ → Prop} (le : n ≤ w.heap.size)
    (post : Q (.ok w.heap.size) { w with heap := w.heap.alloc o }) : Contract n w (.new o) Q :=
  ⟨.alloc le o, post⟩

theorem read_bind {r : Ref} {f : ExnObject κ ν → Code κ ν σ α}
    (next : Contract n w (f (w.heap.objects r)) Q) : Contract n w (Code.read r >>= f) Q :=
  next

/-- Only an object from the bound on may be changed. -/
theorem modify {r : Ref} {f : ExnObject κ ν → ExnObject κ ν}
    {Q : Except Ref Unit → World κ ν σ → Prop} (le : n ≤ r)
    (post : Q (.ok ()) { w with heap := w.heap.modify r f }) : Contract n w (.modify r f) Q :=
  ⟨.modify le f, post⟩

theorem reraise {exc : Ref} (post : Q (.error exc) w) : Contract n w (.reraise exc) Q :=
  ⟨.refl n _, post⟩

/-- Only an exception from the bound on may be raised: it is changed by that. -/
theorem raise {exc : Ref} (le : n ≤ exc)
    (post : Q (.error exc) { w with heap := w.heap.enterFrame exc }) :
    Contract n w (.raise exc) Q :=
  ⟨.enterFrame le, post⟩

theorem tryExcept {catches : ExnObject κ ν → Bool} {handler : Ref → Code κ ν σ α}
    (body : Contract n w c fun result w' =>
      match result with
      | .ok a => Q (.ok a) w'
      | .error exc =>
          if catches (w'.heap.objects exc) then Contract n w' (handler exc) Q
          else Q (.error exc) w') :
    Contract n w (.tryExcept c catches handler) Q := by
  obtain ⟨keeps, next⟩ := body
  simp only [Contract, Code.tryExcept]
  generalize c w = ended at keeps next
  obtain ⟨result, w'⟩ := ended
  cases result with
  | ok a => exact ⟨keeps, next⟩
  | error exc =>
      simp only at next ⊢
      split at next
      · rename_i caught
        rw [if_pos caught]
        exact ⟨keeps.trans next.1, next.2⟩
      · rename_i uncaught
        rw [if_neg uncaught]
        exact ⟨keeps, next⟩

theorem call (body : Contract n w c fun result w' =>
      match result with
      | .ok a => Q (.ok a) w'
      | .error exc => n ≤ exc ∧ Q (.error exc) { w' with heap := w'.heap.enterFrame exc }) :
    Contract n w (.call c) Q := by
  apply tryExcept
  apply body.mono
  intro result w' _ post
  cases result with
  | ok a => exact post
  | error exc => simpa using .raise post.1 post.2

theorem leaving {leave : σ → σ}
    (body : Contract n w c fun result w' => Q result { w' with self := leave w'.self }) :
    Contract n w (.leaving c leave) Q :=
  body

end Contract
end Code
end Python
