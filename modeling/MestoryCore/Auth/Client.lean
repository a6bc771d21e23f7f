import MestoryCore.Asyncio.Lock
import MestoryCore.Auth.Document

/-!
# The client of the key source, one segment at a time

`JwksClient` has the fields of the source's class. A call of `get_key` runs
uninterrupted between its awaits, and each definition below is one of these
segments: `getKey` up to the first await, `underLock` from the moment the lock
is held, and `received` from the end of `http.get`. A segment sees one reading
of the monotonic clock: the conditions it tests only ever turn from false to
true while the clock advances, so the last reading decides.

Time is exact: the rounding of the source's floats is not modelled, and the
initial `float("-inf")` mark of the last attempt is `none`.
-/

namespace MestoryCore.Auth

open Python Asyncio

/-- Readings and intervals of `time.monotonic()`, in seconds. -/
abbrev Time := ℚ

/-- A call of `get_key`, with what its caller needs again when it ends. -/
structure Call (τ : Type) where
  id : Nat
  kid : String
  tag : τ
  deriving DecidableEq

/-- A raised exception object: its identity, and the identity of the object in
its `__cause__` where `get_key` sets one. -/
structure Raised where
  id : Nat
  exn : Exn
  causeId : Option Nat := none

/-- How a call of `get_key` ends. -/
inductive Outcome where
  | returned (pem : String)
  | raised (exc : Raised)
  | cancelled

/-- The fields of the client. The check of `__init__` is a field, so every value
of the type has passed it. -/
structure JwksClient (τ : Type) where
  url : String
  ttl : Time
  minRefetchInterval : Time
  interval_le_ttl : minRefetchInterval ≤ ttl
  keys : Keys := ∅
  fetchedAt : Option Time := none
  lastAttemptAt : Option Time := none
  lastError : Option Raised := none
  lock : Lock (Call τ) := {}

/-- Where a segment leaves its call: suspended in `Lock.acquire`, suspended in
`http.get`, or ended. -/
inductive Segment (τ : Type) where
  | waiting (client : JwksClient τ)
  | requesting (client : JwksClient τ)
  | finished (client : JwksClient τ) (outcome : Outcome)

/-- `UnknownSigningKeyError` for a `kid`. Its text does not mention the address. -/
def unknownSigningKey (lib : Library) (kid : String) : Exn :=
  { cls := .unknownSigningKey
    args := [.str s!"No signing key found for kid {lib.repr (.str kid)}."] }

/-- `_respawn`: a new exception of the same class with the same `args` and
`__dict__`, whichever way it was constructed. -/
def respawn (lib : Library) (exc : Exn) : Exn :=
  let fresh : Exn :=
    match lib.construct exc.cls exc.args with
    | some attributes => { cls := exc.cls, args := exc.args, attributes }
    | none => { cls := exc.cls, args := [] }
  { fresh with args := exc.args, attributes := exc.attributes ∪ fresh.attributes }

@[simp] theorem unknownSigningKey_cls (lib : Library) (kid : String) :
    (unknownSigningKey lib kid).cls = .unknownSigningKey := rfl

@[simp] theorem respawn_cls (lib : Library) (exc : Exn) : (respawn lib exc).cls = exc.cls := by
  simp only [respawn]
  split <;> rfl

namespace JwksClient

variable {τ : Type}

/-- `__init__`. -/
def init (lib : Library) (url : String) (ttl minRefetchInterval : Time) :
    Except Exn (JwksClient τ) :=
  if h : minRefetchInterval ≤ ttl then
    .ok { url, ttl, minRefetchInterval, interval_le_ttl := h }
  else
    .error (.valueError (s!"ttl must be >= min_refetch_interval, got ttl={lib.reprFloat ttl}, " ++
      s!"min_refetch_interval={lib.reprFloat minRefetchInterval}."))

theorem eq_of_init {lib : Library} {url : String} {ttl interval : Time} {c : JwksClient τ}
    (h : init lib url ttl interval = .ok c) :
    ∃ hle : interval ≤ ttl,
      c = { url, ttl, minRefetchInterval := interval, interval_le_ttl := hle } := by
  simp only [init] at h
  split at h
  · exact ⟨by assumption, (Except.ok.inj h).symm⟩
  · cases h

/-- `self._keys.get(kid)`. -/
def lookup (c : JwksClient τ) (kid : String) : Option String :=
  c.keys.lookup (.str kid)

/-- `_is_stale`. -/
def isStale (c : JwksClient τ) (now : Time) : Bool :=
  match c.fetchedAt with
  | none => true
  | some fetchedAt => c.ttl ≤ now - fetchedAt

/-- `_may_refetch`. -/
def mayRefetch (c : JwksClient τ) (now : Time) : Bool :=
  match c.lastAttemptAt with
  | none => true
  | some lastAttemptAt => c.minRefetchInterval ≤ now - lastAttemptAt

/-- `_should_attempt_fetch`. -/
def shouldAttemptFetch (c : JwksClient τ) (now : Time) (kid : String) : Bool :=
  (c.isStale now || (c.lookup kid).isNone) && c.mayRefetch now

/-- Step 4 of `get_key`: the outcome once the cache and a load have had their
turn. A new exception object gets the identity `exc`. -/
def classify (lib : Library) (c : JwksClient τ) (kid : String) (exc : Nat) : Outcome :=
  match c.lookup kid with
  | some key => .returned key
  | none =>
      if c.keys = ∅ then
        match c.lastError with
        | some error =>
            .raised ⟨exc, { respawn lib error.exn with cause := some error.exn }, some error.id⟩
        | none => .raised ⟨exc, unknownSigningKey lib kid, none⟩
      else .raised ⟨exc, unknownSigningKey lib kid, none⟩

/-- `_attempt_fetch` from the moment its lock is held, and `get_key` after it
when no load is attempted. -/
def underLock (lib : Library) (c : JwksClient τ) (now : Time) (call : Call τ) (exc : Nat) :
    Segment τ :=
  if c.shouldAttemptFetch now call.kid then
    .requesting { c with lastAttemptAt := some now }
  else
    let c := { c with lock := c.lock.release }
    .finished c (c.classify lib call.kid exc)

/-- `_attempt_fetch` up to its first await. -/
def attemptFetch (lib : Library) (c : JwksClient τ) (now : Time) (call : Call τ) (exc : Nat) :
    Segment τ :=
  match c.lock.acquire? with
  | some lock => underLock lib { c with lock } now call exc
  | none => .waiting { c with lock := c.lock.enqueue call.id call }

/-- `get_key` up to its first await. -/
def getKey (lib : Library) (c : JwksClient τ) (now : Time) (call : Call τ) (exc : Nat) :
    Segment τ :=
  match c.lookup call.kid, c.isStale now with
  | some key, false => .finished c (.returned key)
  | _, _ =>
      if c.lock.locked || c.shouldAttemptFetch now call.kid then
        c.attemptFetch lib now call exc
      else .finished c (c.classify lib call.kid exc)

/-- A load that brought a document: the assignments of `_fetch` and of
`_attempt_fetch`, and the release of the lock. -/
def install (c : JwksClient τ) (now : Time) (keys : Keys) : JwksClient τ :=
  { c with keys, fetchedAt := some now, lastError := none, lock := c.lock.release }

/-- A load that raised: the exception is remembered and the lock released. -/
def recordFailure (c : JwksClient τ) (error : Raised) : JwksClient τ :=
  { c with lastError := some error, lock := c.lock.release }

/-- The `except` clause of `get_key`: a stale key covers for a failure of the
source, and for nothing else. -/
def fallBack (c : JwksClient τ) (kid : String) (error : Raised) : Outcome :=
  if error.exn.cls.isSourceError then
    match c.lookup kid with
    | some key => .returned key
    | none => .raised error
  else .raised error

/-- A load ended by a `CancelledError`, which `except Exception` does not see. -/
def abortLoad (c : JwksClient τ) : JwksClient τ :=
  { c with lock := c.lock.release }

theorem lookup_eq_none_of_keys_eq_empty {c : JwksClient τ} (h : c.keys = ∅) (kid : String) :
    c.lookup kid = none := by
  simp [lookup, h]

/-- A `kid` that is not cached always needs a refresh, so only the throttle
window can prevent the attempt. -/
theorem shouldAttemptFetch_of_lookup_eq_none {c : JwksClient τ} {now : Time} {kid : String}
    (h : c.lookup kid = none) : c.shouldAttemptFetch now kid = c.mayRefetch now := by
  simp [shouldAttemptFetch, h]

/-- Taking or releasing the lock does not change whether to attempt a load. -/
@[simp] theorem shouldAttemptFetch_lock (c : JwksClient τ) (lock : Lock (Call τ)) (now : Time)
    (kid : String) :
    { c with lock }.shouldAttemptFetch now kid = c.shouldAttemptFetch now kid := rfl

@[simp] theorem lookup_lock (c : JwksClient τ) (lock : Lock (Call τ)) (kid : String) :
    { c with lock }.lookup kid = c.lookup kid := rfl

/-- Step 4 returns exactly what the cache holds at that moment. -/
@[simp] theorem classify_eq_returned_iff {lib : Library} {c : JwksClient τ} {kid pem : String}
    {exc : Nat} : c.classify lib kid exc = .returned pem ↔ c.lookup kid = some pem := by
  simp only [classify]
  split
  · rename_i key hkey
    simp [hkey]
  · rename_i hkey
    split
    · split <;> simp [hkey]
    · simp [hkey]

@[simp] theorem classify_ne_cancelled {lib : Library} {c : JwksClient τ} {kid : String}
    {exc : Nat} : c.classify lib kid exc ≠ .cancelled := by
  simp only [classify]
  split
  · simp
  · split
    · split <;> simp
    · simp

/-- A warm cache answers a `kid` it does not hold with an unknown key. -/
theorem classify_of_keys_ne_empty {lib : Library} {c : JwksClient τ} {kid : String} {exc : Nat}
    (miss : c.lookup kid = none) (warm : c.keys ≠ ∅) :
    c.classify lib kid exc = .raised ⟨exc, unknownSigningKey lib kid, none⟩ := by
  simp [classify, miss, warm]

/-- A cold cache that remembers a failure raises a copy of it. -/
theorem classify_of_lastError {lib : Library} {c : JwksClient τ} {kid : String} {exc : Nat}
    {error : Raised} (cold : c.keys = ∅) (remembered : c.lastError = some error) :
    c.classify lib kid exc =
      .raised ⟨exc, { respawn lib error.exn with cause := some error.exn }, some error.id⟩ := by
  simp [classify, lookup_eq_none_of_keys_eq_empty cold, cold, remembered]

theorem classify_of_cold {lib : Library} {c : JwksClient τ} {kid : String} {exc : Nat}
    (cold : c.keys = ∅) (forgotten : c.lastError = none) :
    c.classify lib kid exc = .raised ⟨exc, unknownSigningKey lib kid, none⟩ := by
  simp [classify, lookup_eq_none_of_keys_eq_empty cold, cold, forgotten]

/-- A failed load is covered by a cached key, and only a failure of the source is. -/
@[simp] theorem fallBack_eq_returned_iff {c : JwksClient τ} {kid pem : String} {error : Raised} :
    c.fallBack kid error = .returned pem ↔
      error.exn.cls.isSourceError = true ∧ c.lookup kid = some pem := by
  simp only [fallBack]
  split
  · rename_i hsource
    split
    · rename_i key hkey
      simp [hsource, hkey]
    · rename_i hkey
      simp [hkey]
  · rename_i hsource
    simp [hsource]

@[simp] theorem fallBack_ne_cancelled {c : JwksClient τ} {kid : String} {error : Raised} :
    c.fallBack kid error ≠ .cancelled := by
  simp only [fallBack]
  split
  · split <;> simp
  · simp

/-- A call raises no other exception than that of its own load. -/
theorem eq_of_fallBack_eq_raised {c : JwksClient τ} {kid : String} {error exc : Raised}
    (h : c.fallBack kid error = .raised exc) : exc = error := by
  simp only [fallBack] at h
  split at h
  · split at h
    · cases h
    · exact (Outcome.raised.inj h).symm
  · exact (Outcome.raised.inj h).symm

/-- Step 4 raises an unknown key or a copy of the remembered error. -/
theorem cls_of_classify_eq_raised {lib : Library} {c : JwksClient τ} {kid : String} {exc : Nat}
    {raised : Raised} (h : c.classify lib kid exc = .raised raised) :
    raised.exn.cls = .unknownSigningKey ∨
      ∃ error, c.lastError = some error ∧ raised.exn.cls = error.exn.cls := by
  simp only [classify] at h
  split at h
  · cases h
  · split at h
    · split at h
      · rename_i error herror
        obtain rfl := Outcome.raised.inj h
        exact .inr ⟨error, herror, respawn_cls lib error.exn⟩
      · obtain rfl := Outcome.raised.inj h
        exact .inl rfl
    · obtain rfl := Outcome.raised.inj h
      exact .inl rfl

/-- A failure that is not the source's own passes through. -/
theorem fallBack_of_not_isSourceError {c : JwksClient τ} {kid : String} {error : Raised}
    (h : error.exn.cls.isSourceError = false) : c.fallBack kid error = .raised error := by
  simp [fallBack, h]

theorem fallBack_of_lookup_eq_none {c : JwksClient τ} {kid : String} (error : Raised)
    (miss : c.lookup kid = none) : c.fallBack kid error = .raised error := by
  simp [fallBack, miss]

end JwksClient
end MestoryCore.Auth
