import MestoryCore.Auth.System
import MestoryCore.Python.Heap

/-!
# The client with exceptions as objects

`JwksClient` remembers an exception as a value. Here `_last_error` is a
reference, and `_respawn`, the `except` clauses, and the `raise` statements of
`get_key` and `_attempt_fetch` act on a heap. The system of concurrent calls is
the one of `Sys` otherwise: the same actions, and the same segments of a call.

An exception that a load raises is a new object, as are the exceptions in its
chain of causes.
-/

namespace MestoryCore.Auth

open Python Asyncio Transition

/-- The library functions, with what they do to an exception object: the `args`
that a constructor leaves, and the length of the traceback of each exception that
leaves `_fetch` for the request with a number. -/
structure ObjectLibrary extends Library where
  initArgs : ExnClass → List Value → List Value
  frames : Nat → Exn → Nat

abbrev ExnHeap := Heap ExnClass Value

/-- The objects of an exception that leaves `_fetch`, its causes first. -/
def allocExn (frames : Exn → Nat) (h : ExnHeap) : Exn → Ref × ExnHeap
  | ⟨cls, args, attributes, none⟩ =>
      let traceback := frames ⟨cls, args, attributes, none⟩
      (h.size, h.alloc { cls, args, attributes, traceback })
  | ⟨cls, args, attributes, some exn⟩ =>
      let (cause, h) := allocExn frames h exn
      let traceback := frames ⟨cls, args, attributes, some exn⟩
      (h.size, h.alloc { cls, args, attributes, cause := some cause, traceback })

/-- The fields of the client, of which `_last_error` is a reference. The field
`lastError` of `fields` is not used. -/
structure ObjectClient (τ : Type) where
  fields : JwksClient τ
  lastError : Option Ref := none

/-- How a call of `get_key` ends. -/
inductive ObjectOutcome where
  | returned (pem : String)
  | raised (exc : Ref)
  | cancelled

/-- How the body of `get_key` ends. -/
def ObjectOutcome.of : Except Ref String → ObjectOutcome
  | .ok pem => .returned pem
  | .error exc => .raised exc

@[simp] theorem ObjectOutcome.of_eq_raised_iff {result : Except Ref String} {exc : Ref} :
    ObjectOutcome.of result = .raised exc ↔ result = .error exc := by
  cases result <;> simp [ObjectOutcome.of]

namespace ObjectClient

variable {τ : Type}

abbrev Method (τ α : Type) := Code ExnClass Value (ObjectClient τ) α

/-- `cls(*args)`: a new instance, or `TypeError`. -/
def construct (lib : ObjectLibrary) (cls : ExnClass) (args : List Value) : Method τ Ref := do
  match lib.construct cls args with
  | some attributes => .new { cls, args := lib.initArgs cls args, attributes }
  | none =>
      let exc ← .new { cls := .typeError, args := [] }
      .raise exc

/-- `_respawn`. -/
def respawn (lib : ObjectLibrary) (exc : Ref) : Method τ Ref := do
  let e ← .read exc
  let fresh ← .tryExcept (.call (construct lib e.cls e.args)) (fun o => o.cls = .typeError)
    fun _ => .new { cls := e.cls, args := [] }
  .modify fresh fun o => { o with args := e.args }
  .modify fresh fun o => { o with attributes := e.attributes ∪ o.attributes }
  return fresh

/-- `_unknown_signing_key`. -/
def unknownSigningKey (lib : ObjectLibrary) (kid : String) : Method τ Ref :=
  let exn := Auth.unknownSigningKey lib.toLibrary kid
  .new { cls := exn.cls, args := exn.args }

/-- Step 4 of `get_key`. -/
def classify (lib : ObjectLibrary) (kid : String) : Method τ String := do
  let c ← .self
  match c.fields.lookup kid with
  | some key => return key
  | none =>
      if c.fields.keys = ∅ then
        match c.lastError with
        | some error =>
            let fresh ← .call (respawn lib error)
            .raiseFrom fresh error
        | none =>
            let exc ← .call (unknownSigningKey lib kid)
            .raise exc
      else
        let exc ← .call (unknownSigningKey lib kid)
        .raise exc

def withLock (c : ObjectClient τ) (lock : Lock (Call τ)) : ObjectClient τ :=
  { c with fields := { c.fields with lock } }

def release (c : ObjectClient τ) : ObjectClient τ := c.withLock c.fields.lock.release

@[simp] theorem release_lookup (c : ObjectClient τ) (kid : String) :
    c.release.fields.lookup kid = c.fields.lookup kid := rfl

/-- The assignments of `_fetch`. -/
def assign (now : Time) (keys : Keys) : Method τ Unit :=
  .update fun c => { c with fields := { c.fields with keys, fetchedAt := some now } }

/-- `_attempt_fetch` from the end of `http.get`. `fetch` is the rest of `_fetch`. -/
def attemptFetchReceived (fetch : Method τ Unit) : Method τ Unit :=
  .leaving
    (do
      .tryExcept (.call fetch) (fun _ => true) fun exc => do
        .update fun c => { c with lastError := some exc }
        .reraise exc
      .update fun c => { c with lastError := none })
    release

/-- `get_key` from the end of `http.get`. -/
def getKeyReceived (lib : ObjectLibrary) (kid : String) (fetch : Method τ Unit) :
    Method τ String := do
  let stale ← .tryExcept
    (do
      .call (attemptFetchReceived fetch)
      return none)
    (fun o => o.cls.isSourceError)
    fun exc => do
      let c ← .self
      match c.fields.lookup kid with
      | some key => return some key
      | none => .reraise exc
  match stale with
  | some key => return key
  | none => classify lib kid

end ObjectClient

/-- Where a segment leaves its call. A call that `finished` runs `body` to its
end, and one that has `withdrawn` raises `CancelledError`. -/
inductive ObjectSegment (τ : Type) where
  | waiting (client : ObjectClient τ)
  | requesting (client : ObjectClient τ)
  | finished (client : ObjectClient τ) (body : ObjectClient.Method τ String)
  | withdrawn (client : ObjectClient τ)

namespace ObjectClient

variable {τ : Type}

/-- `_attempt_fetch` from the moment its lock is held, and `get_key` after it
when no load is attempted. -/
def underLock (lib : ObjectLibrary) (c : ObjectClient τ) (now : Time) (call : Call τ) :
    ObjectSegment τ :=
  if c.fields.shouldAttemptFetch now call.kid then
    .requesting { c with fields := { c.fields with lastAttemptAt := some now } }
  else .finished c.release (classify lib call.kid)

/-- `_attempt_fetch` up to its first await. -/
def attemptFetch (lib : ObjectLibrary) (c : ObjectClient τ) (now : Time) (call : Call τ) :
    ObjectSegment τ :=
  match c.fields.lock.acquire? with
  | some lock => (c.withLock lock).underLock lib now call
  | none => .waiting (c.withLock (c.fields.lock.enqueue call.id call))

/-- `get_key` up to its first await. -/
def getKey (lib : ObjectLibrary) (c : ObjectClient τ) (now : Time) (call : Call τ) :
    ObjectSegment τ :=
  match c.fields.lookup call.kid, c.fields.isStale now with
  | some key, false => .finished c (return key)
  | _, _ =>
      if c.fields.lock.locked || c.fields.shouldAttemptFetch now call.kid then
        c.attemptFetch lib now call
      else .finished c (classify lib call.kid)

end ObjectClient

structure ObjectSys (τ : Type) where
  heap : ExnHeap
  client : ObjectClient τ
  flights : List (Flight τ) := []
  now : Time
  calls : Nat := 0
  requests : Nat := 0

inductive ObjectEvent (τ : Type) where
  | called (call : Call τ)
  | queued (call : Call τ)
  | sent (call : Call τ) (number : Nat) (mark : Time)
  | installed (call : Call τ) (number : Nat) (time : Time) (document : Json)
  | failed (call : Call τ) (number : Nat) (exc : Ref)
  | aborted (call : Call τ) (number : Nat)
  | ended (call : Call τ) (time : Time) (outcome : ObjectOutcome)

/-- A load that ran to completion, with its exception if it failed. -/
def ObjectEvent.completion? {τ : Type} : ObjectEvent τ → Option (Option Ref)
  | .installed _ _ _ _ => some none
  | .failed _ _ exc => some (some exc)
  | .called _ | .queued _ | .sent _ _ _ | .aborted _ _ | .ended _ _ _ => none

/-- The exception of a load that failed. -/
def ObjectEvent.failed? {τ : Type} : ObjectEvent τ → Option Ref
  | .failed _ _ exc => some exc
  | .called _ | .queued _ | .sent _ _ _ | .installed _ _ _ _ | .aborted _ _ | .ended _ _ _ => none

namespace ObjectSys

variable {τ : Type}

/-- Record where a segment left its call. -/
def settle (s : ObjectSys τ) (call : Call τ) (before : List (ObjectEvent τ)) :
    ObjectSegment τ → ObjectSys τ × List (ObjectEvent τ)
  | .waiting client => ({ s with client }, before ++ [.queued call])
  | .requesting client =>
      ({ s with client, flights := s.flights ++ [⟨call, s.requests⟩], requests := s.requests + 1 },
        before ++ [.sent call s.requests s.now])
  | .finished client body =>
      let (result, w) := body { heap := s.heap, self := client }
      ({ s with heap := w.heap, client := w.self }, before ++ [.ended call s.now (.of result)])
  | .withdrawn client => ({ s with client }, before ++ [.ended call s.now .cancelled])

def flight? (s : ObjectSys τ) (id : Nat) : Option (Flight τ) :=
  s.flights.find? fun f => f.call.id = id

/-- The flight has landed. -/
def land (s : ObjectSys τ) (id : Nat) : ObjectSys τ :=
  { s with flights := s.flights.eraseP fun f => f.call.id = id }

/-- The segment of a call whose `http.get` ended. -/
def received (lib : ObjectLibrary) (s : ObjectSys τ) (f : Flight τ)
    (got : Except LibraryExn Response) : ObjectSys τ × List (ObjectEvent τ) :=
  match fetch lib.toLibrary s.client.fields.url got with
  | .ok (document, keys) =>
      s.settle f.call [.installed f.call f.number s.now document]
        (.finished s.client (ObjectClient.getKeyReceived lib f.call.kid
          (ObjectClient.assign s.now keys)))
  | .error exn =>
      let (exc, heap) := allocExn (lib.frames f.number) s.heap exn
      { s with heap }.settle f.call [.failed f.call f.number exc]
        (.finished s.client (ObjectClient.getKeyReceived lib f.call.kid (.reraise exc)))

def step (lib : ObjectLibrary) : Step (ObjectSys τ) (Action τ) (ObjectEvent τ)
  | s, .advance time => if s.now ≤ time then some ({ s with now := time }, []) else none
  | s, .call kid tag =>
      let call : Call τ := { id := s.calls, kid, tag }
      some ({ s with calls := s.calls + 1 }.settle call [.called call]
        (s.client.getKey lib s.now call))
  | s, .wake id =>
      match s.client.fields.lock.find? id with
      | none => none
      | some w =>
          match w.future with
          | .pending => none
          | .woken =>
              some (s.settle w.task []
                ((s.client.withLock (s.client.fields.lock.resume id)).underLock lib s.now w.task))
          | .cancelled | .wokenCancelled =>
              some (s.settle w.task []
                (.withdrawn (s.client.withLock (s.client.fields.lock.abandon id))))
  | s, .cancel id =>
      match s.client.fields.lock.find? id with
      | none => none
      | some _ =>
          some ({ s with client := s.client.withLock (s.client.fields.lock.cancel id) }, [])
  | s, .receive id got =>
      match s.flight? id with
      | none => none
      | some f => some ((s.land id).received lib f got)
  | s, .abort id =>
      match s.flight? id with
      | none => none
      | some f =>
          some ((s.land id).settle f.call [.aborted f.call f.number]
            (.withdrawn s.client.release))

end ObjectSys

/-- A client that `__init__` returned, before any call, in a program that may
have raised other exceptions. -/
inductive ObjectStarted {τ : Type} (lib : ObjectLibrary) (url : String) (ttl interval : Time) :
    ObjectSys τ → Prop where
  | mk {fields : JwksClient τ} (heap : ExnHeap) (now : Time) :
      JwksClient.init lib.toLibrary url ttl interval = .ok fields →
        ObjectStarted lib url ttl interval { heap, client := { fields }, now }

/-! ## What the methods do -/

/-- What `_respawn` makes of an exception, whichever way the copy is constructed. -/
def copyOf (lib : ObjectLibrary) (e : ExnObject ExnClass Value) : ExnObject ExnClass Value where
  cls := e.cls
  args := e.args
  attributes := e.attributes ∪ (lib.construct e.cls e.args).getD ∅

/-- The object exists in `h` and did not when the references below `n` were all. -/
structure IsNew (n : Ref) (h : ExnHeap) (r : Ref) : Prop where
  le : n ≤ r
  lt : r < h.size

namespace ObjectClient

variable {τ : Type} {lib : ObjectLibrary} {n : Ref} {kid : String} {exc : Ref}
variable {w : World ExnClass Value (ObjectClient τ)}

theorem construct_contract (le : n ≤ w.heap.size) (cls : ExnClass) (args : List Value) :
    Code.Contract n w (construct lib cls args) fun result w' => w'.self = w.self ∧
      match lib.construct cls args with
      | some attributes => ∃ r, result = .ok r ∧ IsNew n w'.heap r ∧
          w'.heap.objects r = { cls, args := lib.initArgs cls args, attributes }
      | none => ∃ r, result = .error r ∧ IsNew n w'.heap r ∧
          (w'.heap.objects r).cls = .typeError := by
  unfold construct
  cases lib.construct cls args with
  | some attributes => exact .new le ⟨rfl, _, rfl, ⟨le, by simp⟩, by simp⟩
  | none =>
      refine .bind (.new le (.raise le ⟨rfl, _, rfl, ⟨le, ?_⟩, ?_⟩))
      · simp
      · simp

/-- Both ways of construction end with the same copy. -/
theorem respawn_contract (le : n ≤ w.heap.size) (exc : Ref) :
    Code.Contract n w (respawn lib exc) fun result w' => w'.self = w.self ∧
      ∃ fresh, result = .ok fresh ∧ IsNew n w'.heap fresh ∧
        w'.heap.objects fresh = copyOf lib (w.heap.objects exc) := by
  unfold respawn
  refine .read_bind ?_
  generalize w.heap.objects exc = e
  have constructed : Code.Contract n w
      (.tryExcept (.call (construct lib e.cls e.args)) (fun o => o.cls = .typeError)
        fun _ => .new { cls := e.cls, args := [] })
      fun result w' => w'.self = w.self ∧ ∃ fresh, result = .ok fresh ∧ IsNew n w'.heap fresh ∧
        (w'.heap.objects fresh).cls = e.cls ∧ (w'.heap.objects fresh).cause = none ∧
        (w'.heap.objects fresh).traceback = 0 ∧
        (w'.heap.objects fresh).attributes = (lib.construct e.cls e.args).getD ∅ := by
    refine .tryExcept (.call ((construct_contract le e.cls e.args).mono ?_))
    rintro result w' keeps ⟨same, made⟩
    cases hconstruct : lib.construct e.cls e.args with
    | some attributes =>
        rw [hconstruct] at made
        obtain ⟨r, rfl, isNew, hr⟩ := made
        exact ⟨same, r, rfl, isNew, by simp [hr]⟩
    | none =>
        rw [hconstruct] at made
        obtain ⟨r, rfl, isNew, hr⟩ := made
        refine ⟨isNew.le, ?_⟩
        simp only [Heap.enterFrame_objects, hr, decide_true, if_true]
        have le' := le.trans keeps.size_le
        refine .new le' ⟨same, _, rfl, ⟨le', by simp⟩, ?_⟩
        rw [Heap.alloc_objects rfl]
        exact ⟨rfl, rfl, rfl, rfl⟩
  refine .bind (constructed.mono ?_)
  rintro _ w' _ ⟨same, fresh, rfl, isNew, cls, cause, traceback, attributes⟩
  refine .bind (.modify isNew.le (.bind (.modify isNew.le (.pure ?_))))
  refine ⟨same, fresh, rfl, ⟨isNew.le, isNew.lt⟩, ?_⟩
  simp [copyOf, cls, cause, traceback, attributes]

/-- The end of step 4 of `get_key`: a cached key, a copy of the remembered
exception, or an unknown key. The exceptions are new, and were raised in one
frame. -/
inductive Classified (lib : ObjectLibrary) (n : Ref) (kid : String)
    (w w' : World ExnClass Value (ObjectClient τ)) : Except Ref String → Prop where
  | found {key : String} (cached : w.self.fields.lookup kid = some key) :
      Classified lib n kid w w' (.ok key)
  | copied {error fresh : Ref} (cold : w.self.fields.keys = ∅)
      (remembered : w.self.lastError = some error) (isNew : IsNew n w'.heap fresh)
      (object : w'.heap.objects fresh =
        { copyOf lib (w.heap.objects error) with cause := some error, traceback := 1 }) :
      Classified lib n kid w w' (.error fresh)
  | unknown {fresh : Ref} (miss : w.self.fields.lookup kid = none)
      (unblamed : w.self.fields.keys ≠ ∅ ∨ w.self.lastError = none) (isNew : IsNew n w'.heap fresh)
      (object : w'.heap.objects fresh =
        { cls := .unknownSigningKey, args := (Auth.unknownSigningKey lib.toLibrary kid).args,
          traceback := 1 }) :
      Classified lib n kid w w' (.error fresh)

private theorem raise_unknownSigningKey_contract (le : n ≤ w.heap.size)
    (miss : w.self.fields.lookup kid = none)
    (unblamed : w.self.fields.keys ≠ ∅ ∨ w.self.lastError = none) :
    Code.Contract n w (do let exc ← .call (unknownSigningKey lib kid); .raise exc) fun result w' =>
      w'.self = w.self ∧ Classified lib n kid w w' result := by
  refine .bind (.call (.new le (.raise le ?_)))
  exact ⟨rfl, .unknown miss unblamed ⟨le, by simp⟩ (by simp)⟩

theorem classify_contract (le : n ≤ w.heap.size) :
    Code.Contract n w (classify lib kid) fun result w' =>
      w'.self = w.self ∧ Classified lib n kid w w' result := by
  unfold classify
  refine .self_bind ?_
  cases hkey : w.self.fields.lookup kid with
  | some key => exact .pure ⟨rfl, .found hkey⟩
  | none =>
      by_cases cold : w.self.fields.keys = ∅
      · simp only [cold, if_true]
        cases hlast : w.self.lastError with
        | none => exact raise_unknownSigningKey_contract le hkey (.inr hlast)
        | some error =>
            refine .bind (.call ((respawn_contract le error).mono ?_))
            rintro _ w' _ ⟨same, fresh, rfl, isNew, object⟩
            refine .bind (.modify isNew.le (.raise isNew.le ?_))
            refine ⟨same, .copied cold hlast ⟨isNew.le, isNew.lt⟩ ?_⟩
            simp [object, copyOf]
      · simp only [cold, if_false]
        exact raise_unknownSigningKey_contract le hkey (.inl cold)

/-- A load that brought a document: the assignments, and step 4 after them. -/
theorem getKeyReceived_assign (now : Time) (keys : Keys) :
    getKeyReceived lib kid (assign now keys) w =
      classify lib kid { w with self := {
        fields := { w.self.fields with
          keys, fetchedAt := some now, lock := w.self.fields.lock.release }
        lastError := none } } :=
  rfl

/-- A load that raised `exc`: the exception is remembered and the lock released.
Unless a stale key covers for it, `exc` itself is raised, in two more frames. -/
theorem getKeyReceived_reraise_contract (exc : Ref) :
    Code.Contract exc w (getKeyReceived lib kid (.reraise exc)) fun result w' =>
      w'.self = { w.self with lastError := some exc }.release ∧ w'.heap.size = w.heap.size ∧
      w'.heap.objects exc = { w.heap.objects exc with
        traceback := (w.heap.objects exc).traceback + 2 } ∧
      result = (match w.self.fields.lookup kid with
        | some key => if (w.heap.objects exc).cls.isSourceError then .ok key else .error exc
        | none => .error exc) := by
  unfold getKeyReceived attemptFetchReceived
  refine .bind (.tryExcept (.bind (.call (.leaving (.bind (.tryExcept (.call (.reraise
    ⟨le_rfl, ?_⟩))))))))
  simp only [if_true]
  refine .bind (.update (.reraise ⟨le_rfl, ?_⟩))
  simp only [Heap.enterFrame_objects]
  by_cases source : (w.heap.objects exc).cls.isSourceError = true
  · simp only [source, if_true]
    refine .self_bind ?_
    simp only [release_lookup]
    cases hkey : w.self.fields.lookup kid with
    | some key => exact .pure (.pure ⟨rfl, by simp, by simp, rfl⟩)
    | none => exact .reraise ⟨rfl, by simp, by simp, rfl⟩
  · rw [if_neg source]
    refine ⟨trivial, by simp, by simp, ?_⟩
    cases w.self.fields.lookup kid with
    | some key => simp [source]
    | none => rfl

end ObjectClient
end MestoryCore.Auth
