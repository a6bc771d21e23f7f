import MestoryCore.Auth.Objects
import MestoryCore.Auth.Refinement

/-!
# The client of objects refines the client of values

`Depicts h r exn` says that the object `r` and the objects of its causes hold the
value `exn`. With it each step of `ObjectSys` is a step of `Sys` that emits the
same events, so what is proved of `Sys` holds of the client with a heap. Two more
facts belong to the same step: it changes no object that existed before it, and
it raises no exception that did.
-/

namespace MestoryCore.Auth

open Python Asyncio Transition

variable {τ : Type} {lib : ObjectLibrary} {url : String} {ttl interval : Time}
variable {h h' : ExnHeap} {n r exc : Ref} {exn : Exn}

/-- The object `r` holds `exn`. A cause exists before the exception raised from it. -/
inductive Depicts (h : ExnHeap) : Ref → Exn → Prop where
  | root {r : Ref} {cls : ExnClass} {args : List Value} {attributes : Attributes}
      (traceback : Nat) (lt : r < h.size)
      (object : h.objects r = { cls, args, attributes, traceback }) :
      Depicts h r { cls, args, attributes }
  | caused {r cause : Ref} {cls : ExnClass} {args : List Value} {attributes : Attributes}
      {exn : Exn} (traceback : Nat) (lt : r < h.size)
      (object : h.objects r = { cls, args, attributes, cause := some cause, traceback })
      (earlier : cause < r) (origin : Depicts h cause exn) :
      Depicts h r { cls, args, attributes, cause := some exn }

namespace Depicts

theorem lt (depicts : Depicts h r exn) : r < h.size := by
  cases depicts <;> assumption

theorem object (depicts : Depicts h r exn) :
    (h.objects r).cls = exn.cls ∧ (h.objects r).args = exn.args ∧
      (h.objects r).attributes = exn.attributes := by
  cases depicts with
  | root _ _ object => simp [object]
  | caused _ _ object => simp [object]

theorem keeps (depicts : Depicts h r exn) (below : r < n) (keeps : h.Keeps n h') :
    Depicts h' r exn := by
  induction depicts with
  | root traceback lt object =>
      exact .root traceback (lt.trans_le keeps.size_le)
        ((keeps.objects_eq _ below).trans object)
  | caused traceback lt object earlier _ ih =>
      exact .caused traceback (lt.trans_le keeps.size_le)
        ((keeps.objects_eq _ below).trans object) earlier (ih (earlier.trans below))

/-- The traceback is no part of the value. -/
theorem touch (depicts : Depicts h r exn) (keeps : h.Keeps r h') {traceback : Nat}
    (object : h'.objects r = { h.objects r with traceback }) : Depicts h' r exn := by
  cases depicts with
  | root _ lt object' =>
      exact .root traceback (lt.trans_le keeps.size_le) (by rw [object, object'])
  | caused _ lt object' earlier origin =>
      exact .caused traceback (lt.trans_le keeps.size_le) (by rw [object, object']) earlier
        (origin.keeps earlier keeps)

theorem chain (depicts : Depicts h r exn) : ∃ rs, h.CauseChain r rs := by
  induction depicts with
  | root _ lt object => exact ⟨_, .last lt (by rw [object])⟩
  | caused _ lt object _ _ ih =>
      obtain ⟨rs, chain⟩ := ih
      exact ⟨_, .next lt (by rw [object]) chain⟩

/-- The object that a failed load raises. -/
theorem allocExn (frames : Exn → Nat) (h : ExnHeap) (exn : Exn) :
    Depicts (allocExn frames h exn).2 (allocExn frames h exn).1 exn ∧
      h.Keeps h.size (allocExn frames h exn).2 ∧ h.size ≤ (allocExn frames h exn).1 := by
  fun_induction Auth.allocExn frames h exn with
  | case1 =>
      exact ⟨.root _ (by simp) (Heap.alloc_objects rfl _), .alloc le_rfl _, le_rfl⟩
  | case2 cls args attributes exn cause h' hcause traceback ih =>
      rw [hcause] at ih
      obtain ⟨origin, keeps, _⟩ := ih
      refine ⟨.caused traceback (by simp) (Heap.alloc_objects rfl _) origin.lt ?_, ?_,
        keeps.size_le⟩
      · exact origin.keeps origin.lt (.alloc le_rfl _)
      · exact keeps.trans (.alloc keeps.size_le _)

/-- The copy that `_respawn` makes, raised from the exception it is a copy of. -/
theorem copyOf (depicts : Depicts h exc exn) (keeps : h.Keeps h.size h') (isNew : IsNew h.size h' r)
    {traceback : Nat} (object : h'.objects r =
      { copyOf lib (h.objects exc) with cause := some exc, traceback }) :
    Depicts h' r { respawn lib.toLibrary exn with cause := some exn } := by
  obtain ⟨cls, args, attributes⟩ := depicts.object
  have copied : respawn lib.toLibrary exn =
      { cls := exn.cls, args := exn.args,
        attributes := exn.attributes ∪ (lib.construct exn.cls exn.args).getD ∅ } := by
    simp only [respawn]
    cases lib.construct exn.cls exn.args <;> rfl
  rw [copied]
  refine .caused traceback isNew.lt ?_ (depicts.lt.trans_le isNew.le)
    (depicts.keeps depicts.lt keeps)
  rw [object]
  simp [Auth.copyOf, cls, args, attributes]

end Depicts

/-! ## Clients, segments, and events -/

inductive ClientDepicts (h : ExnHeap) : ObjectClient τ → JwksClient τ → Prop where
  | mk {fields : JwksClient τ} {last : Option Ref} {error : Option Raised} :
      Option.Rel (fun r error => Depicts h r error.exn) last error →
        ClientDepicts h { fields, lastError := last } { fields with lastError := error }

inductive OutcomeDepicts (h : ExnHeap) : ObjectOutcome → Outcome → Prop where
  | returned (pem : String) : OutcomeDepicts h (.returned pem) (.returned pem)
  | raised {r : Ref} {exc : Raised} (depicts : Depicts h r exc.exn) :
      OutcomeDepicts h (.raised r) (.raised exc)
  | cancelled : OutcomeDepicts h .cancelled .cancelled

inductive EventDepicts (h : ExnHeap) : ObjectEvent τ → Event τ → Prop where
  | called (call : Call τ) : EventDepicts h (.called call) (.called call)
  | queued (call : Call τ) : EventDepicts h (.queued call) (.queued call)
  | sent (call : Call τ) (number : Nat) (mark : Time) :
      EventDepicts h (.sent call number mark) (.load call (.sent number mark))
  | installed (call : Call τ) (number : Nat) (time : Time) (document : Json) :
      EventDepicts h (.installed call number time document)
        (.load call (.installed number time document))
  | failed (call : Call τ) (number : Nat) {r : Ref} {error : Raised}
      (depicts : Depicts h r error.exn) :
      EventDepicts h (.failed call number r) (.load call (.failed number error))
  | aborted (call : Call τ) (number : Nat) :
      EventDepicts h (.aborted call number) (.load call (.aborted number))
  | ended (call : Call τ) (time : Time) {outcome : ObjectOutcome} {o : Outcome}
      (depicts : OutcomeDepicts h outcome o) :
      EventDepicts h (.ended call time outcome) (.ended call time o)

/-- The segments leave the call at the same place, and the client remembers
`last`. A body that runs to its end touches no object below `n`, and raises none. -/
inductive SegmentDepicts (n : Ref) (h : ExnHeap) (last : Option Ref) :
    ObjectSegment τ → Segment τ → Prop where
  | waiting {c : ObjectClient τ} {c' : JwksClient τ} (client : ClientDepicts h c c')
      (remembers : c.lastError = last) : SegmentDepicts n h last (.waiting c) (.waiting c')
  | requesting {c : ObjectClient τ} {c' : JwksClient τ} (client : ClientDepicts h c c')
      (remembers : c.lastError = last) : SegmentDepicts n h last (.requesting c) (.requesting c')
  | finished {c : ObjectClient τ} {body : ObjectClient.Method τ String} {c' : JwksClient τ}
      {o : Outcome}
      (contract : Code.Contract n { heap := h, self := c } body fun result w =>
        ClientDepicts w.heap w.self c' ∧ w.self.lastError = last ∧
          OutcomeDepicts w.heap (.of result) o ∧ ∀ r, result = .error r → n ≤ r) :
      SegmentDepicts n h last (.finished c body) (.finished c' o)
  | withdrawn {c : ObjectClient τ} {c' : JwksClient τ} (client : ClientDepicts h c c')
      (remembers : c.lastError = last) :
      SegmentDepicts n h last (.withdrawn c) (.finished c' .cancelled)

theorem ClientDepicts.keeps {c : ObjectClient τ} {c' : JwksClient τ}
    (depicts : ClientDepicts h c c') (keeps : h.Keeps h.size h') : ClientDepicts h' c c' := by
  cases depicts with
  | mk error =>
      refine .mk ?_
      cases error with
      | none => exact .none
      | some error => exact .some (error.keeps error.lt keeps)

theorem OutcomeDepicts.keeps {o : ObjectOutcome} {o' : Outcome} (depicts : OutcomeDepicts h o o')
    (keeps : h.Keeps h.size h') : OutcomeDepicts h' o o' := by
  cases depicts with
  | returned => exact .returned _
  | raised depicts => exact .raised (depicts.keeps depicts.lt keeps)
  | cancelled => exact .cancelled

theorem EventDepicts.keeps {e : ObjectEvent τ} {e' : Event τ} (depicts : EventDepicts h e e')
    (keeps : h.Keeps h.size h') : EventDepicts h' e e' := by
  cases depicts with
  | called => exact .called _
  | queued => exact .queued _
  | sent => exact .sent _ _ _
  | installed => exact .installed _ _ _ _
  | failed _ _ depicts => exact .failed _ _ (depicts.keeps depicts.lt keeps)
  | aborted => exact .aborted _ _
  | ended _ _ depicts => exact .ended _ _ (depicts.keeps keeps)

/-! ## Segments -/

section Segments

variable {c : ObjectClient τ} {c' : JwksClient τ} {kid : String} {now : Time} {call : Call τ}

theorem ClientDepicts.lookup (client : ClientDepicts h c c') (kid : String) :
    c'.lookup kid = c.fields.lookup kid := by
  cases client
  rfl

theorem ClientDepicts.keys (client : ClientDepicts h c c') : c'.keys = c.fields.keys := by
  cases client
  rfl

theorem ClientDepicts.exists_error (client : ClientDepicts h c c') (last : c.lastError = some r) :
    ∃ error, c'.lastError = some error ∧ Depicts h r error.exn := by
  cases client with
  | mk related =>
      subst last
      cases related with
      | some depicts => exact ⟨_, rfl, depicts⟩

theorem ClientDepicts.forgotten (client : ClientDepicts h c c') (last : c.lastError = none) :
    c'.lastError = none := by
  cases client with
  | mk related =>
      subst last
      cases related
      rfl

/-- Step 4 on objects ends as step 4 on values does. -/
theorem ClientDepicts.classify (client : ClientDepicts h c c') (kid : String) (exc : Nat) :
    Code.Contract h.size { heap := h, self := c } (ObjectClient.classify lib kid) fun result w =>
      ClientDepicts w.heap w.self c' ∧ w.self.lastError = c.lastError ∧
        OutcomeDepicts w.heap (.of result) (c'.classify lib.toLibrary kid exc) ∧
        ∀ r, result = .error r → h.size ≤ r := by
  have contract : Code.Contract h.size { heap := h, self := c } (ObjectClient.classify lib kid) _ :=
    ObjectClient.classify_contract le_rfl
  refine contract.mono ?_
  rintro result w keeps ⟨same, classified⟩
  refine ⟨same ▸ client.keeps keeps, congrArg ObjectClient.lastError same, ?_⟩
  cases classified with
  | found cached =>
      rw [JwksClient.classify_eq_returned_iff.mpr ((client.lookup kid).trans cached)]
      exact ⟨.returned _, nofun⟩
  | @copied r fresh cold remembered isNew object =>
      obtain ⟨error, hlast, depicts⟩ := client.exists_error remembered
      rw [JwksClient.classify_of_lastError (client.keys.trans cold) hlast]
      refine ⟨.raised (depicts.copyOf keeps isNew object), ?_⟩
      rintro _ ⟨⟩
      exact isNew.le
  | @unknown fresh miss unblamed isNew object =>
      have unknown : c'.classify lib.toLibrary kid exc =
          .raised ⟨exc, unknownSigningKey lib.toLibrary kid, none⟩ := by
        by_cases cold : c.fields.keys = ∅
        · have forgotten := client.forgotten (unblamed.resolve_left (not_not_intro cold))
          exact JwksClient.classify_of_cold (client.keys.trans cold) forgotten
        · exact JwksClient.classify_of_keys_ne_empty ((client.lookup kid).trans miss)
            (client.keys ▸ cold)
      rw [unknown]
      refine ⟨.raised (.root 1 isNew.lt object), ?_⟩
      rintro _ ⟨⟩
      exact isNew.le

theorem ClientDepicts.lock (client : ClientDepicts h c c') : c'.lock = c.fields.lock := by
  cases client
  rfl

theorem ClientDepicts.url_eq (client : ClientDepicts h c c') : c'.url = c.fields.url := by
  cases client
  rfl

theorem ClientDepicts.isStale (client : ClientDepicts h c c') (now : Time) :
    c'.isStale now = c.fields.isStale now := by
  cases client
  rfl

theorem ClientDepicts.shouldAttemptFetch (client : ClientDepicts h c c') (now : Time)
    (kid : String) : c'.shouldAttemptFetch now kid = c.fields.shouldAttemptFetch now kid := by
  cases client
  rfl

theorem ClientDepicts.withLock (client : ClientDepicts h c c') (lock : Lock (Call τ)) :
    ClientDepicts h (c.withLock lock) { c' with lock } := by
  cases client with
  | mk related => exact .mk related

theorem ClientDepicts.release (client : ClientDepicts h c c') :
    ClientDepicts h c.release { c' with lock := c'.lock.release } := by
  rw [client.lock]
  exact client.withLock _

theorem ClientDepicts.underLock (client : ClientDepicts h c c') (now : Time) (call : Call τ)
    (exc : Nat) :
    SegmentDepicts h.size h c.lastError (c.underLock lib now call)
      (c'.underLock lib.toLibrary now call exc) := by
  simp only [ObjectClient.underLock, JwksClient.underLock, client.shouldAttemptFetch]
  split
  · cases client with
    | mk related => exact .requesting (.mk related) rfl
  · exact .finished (client.release.classify call.kid exc)

theorem ClientDepicts.attemptFetch (client : ClientDepicts h c c') (now : Time) (call : Call τ)
    (exc : Nat) :
    SegmentDepicts h.size h c.lastError (c.attemptFetch lib now call)
      (c'.attemptFetch lib.toLibrary now call exc) := by
  simp only [ObjectClient.attemptFetch, JwksClient.attemptFetch, client.lock]
  cases c.fields.lock.acquire? with
  | some lock => exact (client.withLock lock).underLock now call exc
  | none => exact .waiting (client.withLock _) rfl

theorem ClientDepicts.getKey (client : ClientDepicts h c c') (now : Time) (call : Call τ)
    (exc : Nat) :
    SegmentDepicts h.size h c.lastError (c.getKey lib now call)
      (c'.getKey lib.toLibrary now call exc) := by
  have miss : SegmentDepicts h.size h c.lastError
      (if c.fields.lock.locked || c.fields.shouldAttemptFetch now call.kid then
        c.attemptFetch lib now call
      else .finished c (ObjectClient.classify lib call.kid))
      (if c.fields.lock.locked || c.fields.shouldAttemptFetch now call.kid then
        c'.attemptFetch lib.toLibrary now call exc
      else .finished c' (c'.classify lib.toLibrary call.kid exc)) := by
    split
    · exact client.attemptFetch now call exc
    · exact .finished (client.classify call.kid exc)
  simp only [ObjectClient.getKey, JwksClient.getKey, client.lookup, client.isStale, client.lock,
    client.shouldAttemptFetch]
  cases c.fields.lookup call.kid with
  | none => exact miss
  | some key =>
      cases c.fields.isStale now with
      | true => exact miss
      | false => exact .finished (.pure ⟨client, rfl, .returned key, nofun⟩)

/-- The end of a load that brought a document. -/
theorem ClientDepicts.received_assign (client : ClientDepicts h c c') (now : Time) (keys : Keys)
    (kid : String) (exc : Nat) :
    SegmentDepicts h.size h none
      (.finished c (ObjectClient.getKeyReceived lib kid (ObjectClient.assign now keys)))
      (.finished (c'.install now keys)
        ((c'.install now keys).classify lib.toLibrary kid exc)) := by
  have assigned : ClientDepicts h
      { fields := { c.fields with keys, fetchedAt := some now, lock := c.fields.lock.release }
        lastError := none } (c'.install now keys) := by
    cases client
    exact .mk .none
  apply SegmentDepicts.finished
  rw [Code.Contract, ObjectClient.getKeyReceived_assign]
  exact assigned.classify kid exc

/-- The end of a load that raised. -/
theorem ClientDepicts.received_reraise (client : ClientDepicts h c c') (lib : ObjectLibrary)
    {error : Raised} {r : Ref} (depicts : Depicts h r error.exn) (kid : String) (le : n ≤ r) :
    SegmentDepicts n h (some r) (.finished c (ObjectClient.getKeyReceived lib kid (.reraise r)))
        (.finished (c'.recordFailure error) ((c'.recordFailure error).fallBack kid error)) ∧
      Depicts (ObjectClient.getKeyReceived lib kid (.reraise r) { heap := h, self := c }).2.heap r
        error.exn := by
  have contract : Code.Contract r { heap := h, self := c }
      (ObjectClient.getKeyReceived lib kid (.reraise r)) _ :=
    ObjectClient.getKeyReceived_reraise_contract r
  have lookup : (c'.recordFailure error).lookup kid = c.fields.lookup kid := client.lookup kid
  have cls : (h.objects r).cls = error.exn.cls := depicts.object.1
  obtain ⟨keeps, same, _, object, hresult⟩ := contract
  have raised := depicts.touch keeps object
  have new : ∀ r', (.error r : Except Ref String) = .error r' → n ≤ r' := by
    rintro _ ⟨⟩
    exact le
  refine ⟨.finished ⟨keeps.mono le, ?_, congrArg ObjectClient.lastError same, ?_⟩, raised⟩
  · rw [same]
    cases client
    exact .mk (.some raised)
  · rw [hresult]
    simp only [JwksClient.fallBack, lookup, cls]
    cases c.fields.lookup kid with
    | none =>
        simp only [ite_self]
        exact ⟨.raised raised, new⟩
    | some key =>
        cases error.exn.cls.isSourceError with
        | true => exact ⟨.returned key, nofun⟩
        | false => exact ⟨.raised raised, new⟩

end Segments

/-! ## Steps and runs -/

/-- An exception that a call ended with. -/
def RaisedIn (es : List (ObjectEvent τ)) (r : Ref) : Prop :=
  ∃ call time, .ended call time (.raised r) ∈ es

/-- The state of a system of values with the calls of `o`. -/
def ObjectSys.view (o : ObjectSys τ) (client : JwksClient τ) (exceptions : Nat) : Sys τ where
  client
  flights := o.flights
  now := o.now
  calls := o.calls
  requests := o.requests
  exceptions

inductive StateDepicts (o : ObjectSys τ) : Sys τ → Prop where
  | mk {c' : JwksClient τ} (exceptions : Nat) (client : ClientDepicts o.heap o.client c') :
      StateDepicts o (o.view c' exceptions)

/-- What the client remembers after a trace, if it remembered `last` before. -/
def remembered (last : Option Ref) (es : List (ObjectEvent τ)) : Option Ref :=
  (latest ObjectEvent.completion? es).getD last

theorem remembered_append (last : Option Ref) (es fs : List (ObjectEvent τ)) :
    remembered last (es ++ fs) = remembered (remembered last es) fs := by
  simp only [remembered, latest_append]
  cases latest ObjectEvent.completion? fs <;> rfl

/-- What a step of the client of objects is in the client of values. -/
structure StepDepicts (n : Ref) (h : ExnHeap) (last : Option Ref)
    (next : ObjectSys τ × List (ObjectEvent τ)) (next' : Sys τ × List (Event τ)) : Prop where
  state : StateDepicts next.1 next'.1
  events : List.Forall₂ (EventDepicts next.1.heap) next.2 next'.2
  keeps : h.Keeps n next.1.heap
  raised : ∀ r, RaisedIn next.2 r → n ≤ r
  remembers : next.1.client.lastError = remembered last next.2

section Steps

variable {o o' : ObjectSys τ} {s s' : Sys τ} {call : Call τ}
variable {es fs : List (ObjectEvent τ)} {es' fs' : List (Event τ)} {a : Action τ}

/-- The two systems record a segment in the same way. -/
theorem StateDepicts.settle (state : StateDepicts o s) {before : List (ObjectEvent τ)}
    {before' : List (Event τ)} {segment : ObjectSegment τ} {segment' : Segment τ}
    {last : Option Ref} (depicts : SegmentDepicts n o.heap last segment segment') (call : Call τ)
    (events : List.Forall₂ (EventDepicts (o.settle call before segment).1.heap) before before')
    (quiet : ∀ r, ¬ RaisedIn before r)
    (remembers : remembered o.client.lastError before = last) :
    StepDepicts n o.heap o.client.lastError (o.settle call before segment)
      (s.settle call before' segment') := by
  have unraised : ∀ {e : ObjectEvent τ} {r}, RaisedIn (before ++ [e]) r →
      ∃ call time, e = .ended call time (.raised r) := by
    rintro e r ⟨call, time, ended⟩
    cases List.mem_append.mp ended with
    | inl ended => exact absurd ⟨call, time, ended⟩ (quiet r)
    | inr ended => exact ⟨call, time, (List.mem_singleton.mp ended).symm⟩
  have silent : ∀ {e : ObjectEvent τ}, (∀ call time r, e ≠ .ended call time (.raised r)) →
      ∀ r, RaisedIn (before ++ [e]) r → n ≤ r := by
    intro e hne r raised
    obtain ⟨call, time, ended⟩ := unraised raised
    exact absurd ended (hne call time r)
  have unchanged : ∀ {e : ObjectEvent τ}, e.completion? = none →
      last = remembered o.client.lastError (before ++ [e]) := by
    intro e incomplete
    rw [remembered_append, remembers]
    simp [remembered, incomplete]
  cases state with
  | mk exceptions =>
      cases depicts with
      | waiting client same =>
          exact ⟨.mk _ client, List.rel_append events (.cons (.queued call) .nil), .refl n _,
            silent (by simp), same.trans (unchanged rfl)⟩
      | requesting client same =>
          exact ⟨.mk _ client, List.rel_append events (.cons (.sent call _ _) .nil), .refl n _,
            silent (by simp), same.trans (unchanged rfl)⟩
      | finished contract =>
          obtain ⟨keeps, client, same, outcome, new⟩ := contract
          refine ⟨.mk _ client, List.rel_append events (.cons (.ended call _ outcome) .nil), keeps,
            ?_, same.trans (unchanged rfl)⟩
          intro r raised
          obtain ⟨_, _, hended⟩ := unraised raised
          exact new r (ObjectOutcome.of_eq_raised_iff.mp (ObjectEvent.ended.inj hended).2.2)
      | withdrawn client same =>
          exact ⟨.mk _ client, List.rel_append events (.cons (.ended call _ .cancelled) .nil),
            .refl n _, silent (by simp), same.trans (unchanged rfl)⟩

/-- A step that emits nothing and leaves the exceptions alone. -/
theorem StepDepicts.quiet (state : StateDepicts o' s') (heap : o'.heap = o.heap)
    (last : o'.client.lastError = o.client.lastError) :
    StepDepicts n o.heap o.client.lastError (o', []) (s', []) := by
  refine ⟨state, .nil, heap ▸ .refl n _, ?_, last⟩
  rintro r ⟨_, _, ended⟩
  cases ended

/-- The end of `http.get`. The objects of a raised exception are new. -/
theorem StateDepicts.received (state : StateDepicts o s) (f : Flight τ)
    (got : Except LibraryExn Response) :
    StepDepicts o.heap.size o.heap o.client.lastError (o.received lib f got)
      (s.received lib.toLibrary f got) := by
  obtain @⟨c', exceptions, client⟩ := state
  have state : StateDepicts o (o.view c' exceptions) := .mk exceptions client
  have hurl : (o.view c' exceptions).client.url = o.client.fields.url := client.url_eq
  simp only [ObjectSys.received, Sys.received, hurl]
  cases fetch lib.toLibrary o.client.fields.url got with
  | ok result =>
      obtain ⟨document, keys⟩ := result
      exact state.settle (client.received_assign o.now keys f.call.kid exceptions) _
        (.cons (.installed _ _ _ _) .nil) (by simp [RaisedIn]) rfl
  | error exn =>
      obtain ⟨depicts, keeps, le⟩ := Depicts.allocExn (lib.frames f.number) o.heap exn
      have client := client.keeps keeps
      have state : StateDepicts { o with heap := (allocExn (lib.frames f.number) o.heap exn).2 }
          ({ o with heap := (allocExn (lib.frames f.number) o.heap exn).2 }.view c' exceptions) :=
        .mk exceptions client
      have depicts : Depicts _ _ (⟨exceptions, exn, none⟩ : Raised).exn := depicts
      obtain ⟨segment, raised⟩ := client.received_reraise lib depicts f.call.kid le
      have next := state.settle segment f.call (.cons (.failed f.call f.number raised) .nil)
        (by simp [RaisedIn]) rfl
      exact ⟨next.state, next.events, keeps.trans next.keeps, next.raised, next.remembers⟩

/-- Each step of the client of objects is a step of the client of values. -/
theorem StateDepicts.step (state : StateDepicts o s) {next : ObjectSys τ × List (ObjectEvent τ)}
    (hstep : ObjectSys.step lib o a = some next) :
    ∃ next', Sys.step lib.toLibrary s a = some next' ∧
      StepDepicts o.heap.size o.heap o.client.lastError next next' := by
  obtain @⟨c', exceptions, client⟩ := state
  have state : StateDepicts o (o.view c' exceptions) := .mk exceptions client
  have hlock : (o.view c' exceptions).client.lock = o.client.fields.lock := client.lock
  cases a with
  | advance time =>
      by_cases later : o.now ≤ time
      · simp only [ObjectSys.step, later, if_true, Option.some.injEq] at hstep
        subst hstep
        exact ⟨_, if_pos later, .quiet (.mk exceptions client) rfl rfl⟩
      · simp [ObjectSys.step, later] at hstep
  | call kid tag =>
      simp only [ObjectSys.step, Option.some.injEq] at hstep
      subst hstep
      have counted : StateDepicts { o with calls := o.calls + 1 }
          ({ o with calls := o.calls + 1 }.view c' exceptions) := .mk exceptions client
      exact ⟨_, rfl, counted.settle (client.getKey o.now ⟨o.calls, kid, tag⟩ exceptions) _
        (.cons (.called _) .nil) (by simp [RaisedIn]) rfl⟩
  | wake id =>
      cases found : o.client.fields.lock.find? id with
      | none => simp [ObjectSys.step, found] at hstep
      | some w =>
          cases future : w.future with
          | pending => simp [ObjectSys.step, found, future] at hstep
          | woken =>
              simp only [ObjectSys.step, found, future, Option.some.injEq] at hstep
              subst hstep
              refine ⟨_, ?_, state.settle ((client.withLock _).underLock o.now w.task exceptions)
                _ .nil (by simp [RaisedIn]) rfl⟩
              simp only [Sys.step, hlock, found, future]
              rfl
          | cancelled | wokenCancelled =>
              simp only [ObjectSys.step, found, future, Option.some.injEq] at hstep
              subst hstep
              refine ⟨_, ?_, state.settle (.withdrawn (client.withLock _) rfl) _ .nil
                (by simp [RaisedIn]) rfl⟩
              simp only [Sys.step, hlock, found, future]
              rfl
  | cancel id =>
      cases found : o.client.fields.lock.find? id with
      | none => simp [ObjectSys.step, found] at hstep
      | some w =>
          simp only [ObjectSys.step, found, Option.some.injEq] at hstep
          subst hstep
          refine ⟨_, ?_, .quiet (.mk exceptions (client.withLock _)) rfl rfl⟩
          simp only [Sys.step, hlock, found]
          rfl
  | receive id got =>
      cases found : o.flight? id with
      | none => simp [ObjectSys.step, found] at hstep
      | some f =>
          have found' : (o.view c' exceptions).flight? id = some f := found
          simp only [ObjectSys.step, found, Option.some.injEq] at hstep
          subst hstep
          have landed : StateDepicts (o.land id) ((o.land id).view c' exceptions) :=
            .mk exceptions client
          refine ⟨_, ?_, landed.received f got⟩
          simp only [Sys.step, found']
          rfl
  | abort id =>
      cases found : o.flight? id with
      | none => simp [ObjectSys.step, found] at hstep
      | some f =>
          have found' : (o.view c' exceptions).flight? id = some f := found
          simp only [ObjectSys.step, found, Option.some.injEq] at hstep
          subst hstep
          have landed : StateDepicts (o.land id) ((o.land id).view c' exceptions) :=
            .mk exceptions client
          refine ⟨_, ?_, landed.settle (.withdrawn client.release rfl) _
            (.cons (.aborted _ _) .nil) (by simp [RaisedIn]) rfl⟩
          simp only [Sys.step, found']
          rfl

end Steps

section Runs

variable {o₀ o o' : ObjectSys τ} {as : List (Action τ)} {a : Action τ}
variable {es fs : List (ObjectEvent τ)}

theorem ObjectStarted.depicts (start : ObjectStarted lib url ttl interval o) :
    ∃ s, Started lib.toLibrary url ttl interval s ∧ StateDepicts o s ∧
      o.client.lastError = none := by
  obtain @⟨fields, heap, now, hinit⟩ := start
  have client : ClientDepicts heap { fields } fields := by
    obtain ⟨_, rfl⟩ := JwksClient.eq_of_init hinit
    exact .mk .none
  exact ⟨_, .mk now hinit, .mk 0 client, rfl⟩

/-- A run of the client of objects, seen as a run of the client of values. -/
structure RunDepicts (lib : ObjectLibrary) (url : String) (ttl interval : Time)
    (as : List (Action τ)) (es : List (ObjectEvent τ)) (o : ObjectSys τ) (s₀ : Sys τ)
    (es' : List (Event τ)) (s : Sys τ) : Prop where
  start : Started lib.toLibrary url ttl interval s₀
  run : Run (Sys.step lib.toLibrary) s₀ as es' s
  state : StateDepicts o s
  events : List.Forall₂ (EventDepicts o.heap) es es'
  remembers : o.client.lastError = remembered none es

/-- Each run of the client of objects is a run of the client of values. -/
theorem exists_runDepicts (start : ObjectStarted lib url ttl interval o₀)
    (run : Run (ObjectSys.step lib) o₀ as es o) :
    ∃ s₀ es' s, RunDepicts lib url ttl interval as es o s₀ es' s := by
  obtain ⟨s₀, start', state, last⟩ := start.depicts
  obtain ⟨es', s, run', state, events, remembers⟩ := run.simulate (Sys.step lib.toLibrary)
    (I := fun es o es' s => StateDepicts o s ∧ List.Forall₂ (EventDepicts o.heap) es es' ∧
      o.client.lastError = remembered none es)
    ⟨state, .nil, last⟩ fun ⟨state, events, remembers⟩ hstep => by
      obtain ⟨⟨s', fs'⟩, hstep', next⟩ := state.step hstep
      refine ⟨s', fs', hstep', next.state, ?_, ?_⟩
      · exact List.rel_append (events.imp fun _ _ e => e.keeps next.keeps) next.events
      · rw [remembered_append, ← remembers]
        exact next.remembers
  exact ⟨s₀, es', s, start', run', state, events, remembers⟩

/-- Every event of the run of objects is an event of the run of values. -/
theorem RunDepicts.exists_event {s₀ s : Sys τ} {es' : List (Event τ)}
    (h : RunDepicts lib url ttl interval as es o s₀ es' s) {e : ObjectEvent τ} (he : e ∈ es) :
    ∃ e' ∈ es', EventDepicts o.heap e e' :=
  exists_related_of_mem h.events he

end Runs
end MestoryCore.Auth
