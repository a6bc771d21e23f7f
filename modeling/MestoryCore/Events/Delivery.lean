import MestoryCore.Events.Publisher
import MestoryCore.Python.JsonText
import MestoryCore.Transition.Run

/-!
# Concurrent publishes and the exchange

Any number of `publish` calls run on one event loop, each through its own stack
of publishers, and each up to its next await at a time. The exchange takes the
message of a pending publish at some moment, and only then may that publish end
normally; a publish that fails has not been taken. Every other operation ends as
it likes, except that releasing a channel does not fail.

The invariant holds one contract for each call, at the history of that call, and
says that the exchange has accepted for it what that history has accepted and
the message that is taken but not confirmed.
-/

namespace MestoryCore.Events

open Python Asyncio Transition

variable {Datetime ε : Type}

/-- One call of `publish`. `sent` says that the exchange has taken the message
whose publish the call awaits. -/
structure Call (Datetime ε : Type) where
  publisher : EventPublisher
  event : Event Datetime
  code : Publishing ε Unit
  sent : Bool

/-- The calls, numbered in the order of their start, and the messages that the
exchange has accepted, each with the call it came from. -/
structure Broker (Datetime ε : Type) where
  calls : List (Call Datetime ε)
  exchange : List (Nat × Delivery)

def Broker.empty : Broker Datetime ε := ⟨[], []⟩

/-- How the operation that a call awaits ends. -/
inductive Answer (ε : Type) where
  | acquired (outcome : Except (PublishExn ε) Channel)
  | declared (outcome : Except (PublishExn ε) Unit)
  | published (outcome : Except (PublishExn ε) Unit)
  | released

inductive Action (Datetime ε : Type) where
  | publish (publisher : EventPublisher) (event : Event Datetime)
  | accept (id : Nat)
  | resume (id : Nat) (answer : Answer ε)

/-- The code that goes on with an answer. -/
def Call.resume? (call : Call Datetime ε) (answer : Answer ε) : Option (Publishing ε Unit) :=
  match call.code, answer with
  | .await .acquire next, .acquired outcome => some (next outcome)
  | .await (.declareExchange _ _) next, .declared outcome => some (next outcome)
  | .await (.publish _ _) next, .published outcome =>
      if outcome.isOk = call.sent then some (next outcome) else none
  | .await (.release _) next, .released => some (next (.ok ()))
  | _, _ => none

/-- The message of a call that the exchange can take. -/
def Call.offered? (call : Call Datetime ε) : Option Delivery :=
  match call.code, call.sent with
  | .await (.publish _ delivery) _, false => some delivery
  | _, _ => none

/-- The call goes on with this code, up to its next await. -/
def Call.goOn (call : Call Datetime ε) (code : Publishing ε Unit) : Call Datetime ε :=
  { call with code := code.settle.2, sent := false }

/-- The exchange has taken the message of the call. -/
def Call.take (call : Call Datetime ε) : Call Datetime ε := { call with sent := true }

/-- One step. The emitted events are the lines of the log, each with its call. -/
def Broker.step (lib : Pydantic Datetime) :
    Step (Broker Datetime ε) (Action Datetime ε) (Nat × String)
  | s, .publish publisher event =>
      let started := (publisher.publish lib event).settle
      some (⟨s.calls ++ [⟨publisher, event, started.2, false⟩], s.exchange⟩,
        started.1.map (s.calls.length, ·))
  | s, .accept id => do
      let call ← s.calls[id]?
      let delivery ← call.offered?
      return (⟨s.calls.set id call.take, s.exchange ++ [(id, delivery)]⟩, [])
  | s, .resume id answer => do
      let call ← s.calls[id]?
      let code ← call.resume? answer
      return (⟨s.calls.set id (call.goOn code), s.exchange⟩, code.settle.1.map (id, ·))

/-- What the call was made with. -/
def Call.request (call : Call Datetime ε) : EventPublisher × Event Datetime :=
  (call.publisher, call.event)

/-- The publishes that a schedule starts. -/
def publishes (as : List (Action Datetime ε)) : List (EventPublisher × Event Datetime) :=
  as.filterMap fun
    | .publish publisher event => some (publisher, event)
    | _ => none

/-- The messages that the exchange has accepted from a call. -/
def Broker.acceptedFrom (s : Broker Datetime ε) (id : Nat) : List Delivery :=
  (s.exchange.filter (·.1 = id)).map Prod.snd

/-- How a call ended, when it has. -/
def Broker.outcome? (s : Broker Datetime ε) (id : Nat) : Option (Except (PublishExn ε) Unit) :=
  match s.calls[id]? with
  | some { code := .done outcome, .. } => some outcome
  | _ => none

/-! ## One step -/

/-- The message that is taken but not confirmed. -/
def Call.pending (call : Call Datetime ε) : List Delivery :=
  match call.code, call.sent with
  | .await (.publish _ delivery) _, true => [delivery]
  | _, _ => []

section Step

variable {lib : Pydantic Datetime} {s t : Broker Datetime ε} {a : Action Datetime ε}
variable {fs : List (Nat × String)} {call : Call Datetime ε}

/-- What a step can do. An operation ends in a permitted way, and a publish
accepts a message in the history exactly when the exchange has taken it. -/
inductive Broker.Move (lib : Pydantic Datetime) (s : Broker Datetime ε) :
    Action Datetime ε → Broker Datetime ε → Prop where
  | publish {publisher : EventPublisher} {event : Event Datetime} :
      Move lib s (.publish publisher event)
        ⟨s.calls ++ [⟨publisher, event, (publisher.publish lib event).settle.2, false⟩],
          s.exchange⟩
  | accept {id : Nat} {call : Call Datetime ε} {channel : Channel} {delivery : Delivery}
      {next : Except (PublishExn ε) Unit → Publishing ε Unit} (at_call : s.calls[id]? = some call)
      (code : call.code = .await (.publish channel delivery) next) (fresh : call.pending = []) :
      Move lib s (.accept id) ⟨s.calls.set id call.take, s.exchange ++ [(id, delivery)]⟩
  | resume {id : Nat} {answer : Answer ε} {call : Call Datetime ε} {op : ChannelOp}
      {next : Except (PublishExn ε) op.Reply → Publishing ε Unit}
      {outcome : Except (PublishExn ε) op.Reply} (at_call : s.calls[id]? = some call)
      (code : call.code = .await op next) (permitted : Permitted op outcome)
      (confirmed : accepted [.answered op outcome] = call.pending) :
      Move lib s (.resume id answer) ⟨s.calls.set id (call.goOn (next outcome)), s.exchange⟩

theorem Call.offered?_eq_some {delivery : Delivery} (h : call.offered? = some delivery) :
    ∃ channel next, call.code = .await (.publish channel delivery) next ∧ call.pending = [] := by
  unfold Call.offered? at h
  split at h
  · rename_i channel own next hcode hsent
    obtain rfl : own = delivery := by simpa using h
    exact ⟨channel, next, hcode, by simp [Call.pending, hsent]⟩
  · cases h

/-- An answer ends the awaited operation as the exchange has taken it. -/
theorem Call.resume?_eq_some {answer : Answer ε} {code : Publishing ε Unit}
    (h : call.resume? answer = some code) :
    ∃ (op : ChannelOp) (next : Except (PublishExn ε) op.Reply → Publishing ε Unit)
      (outcome : Except (PublishExn ε) op.Reply), call.code = .await op next ∧
      Permitted op outcome ∧ accepted [.answered op outcome] = call.pending ∧
      next outcome = code := by
  unfold Call.resume? at h
  split at h
  · rename_i next outcome hcode
    obtain rfl := Option.some.inj h
    exact ⟨.acquire, next, outcome, hcode, trivial, by simp [accepted, Call.pending, hcode], rfl⟩
  · rename_i channel options next outcome hcode
    obtain rfl := Option.some.inj h
    exact ⟨.declareExchange channel options, next, outcome, hcode, trivial,
      by simp [accepted, Call.pending, hcode], rfl⟩
  · rename_i channel delivery next outcome hcode
    split at h
    · rename_i hsent
      obtain rfl := Option.some.inj h
      refine ⟨.publish channel delivery, next, outcome, hcode, trivial, ?_, rfl⟩
      cases outcome with
      | error exn =>
          have unsent : call.sent = false := hsent.symm
          simp [accepted, Call.pending, hcode, unsent]
      | ok reply =>
          have sent : call.sent = true := hsent.symm
          simp [accepted, Call.pending, hcode, sent]
    · cases h
  · rename_i channel next hcode
    obtain rfl := Option.some.inj h
    exact ⟨.release channel, next, .ok (), hcode, rfl, by simp [accepted, Call.pending, hcode], rfl⟩
  · cases h

theorem Broker.Move.of_step (h : Broker.step lib s a = some (t, fs)) : Broker.Move lib s a t := by
  cases a with
  | publish publisher event =>
      obtain ⟨rfl, -⟩ := Prod.mk.inj (Option.some.inj h)
      exact .publish
  | accept id =>
      obtain ⟨call, hcall, h⟩ := Option.bind_eq_some_iff.mp h
      obtain ⟨delivery, hoffered, h⟩ := Option.bind_eq_some_iff.mp h
      obtain ⟨rfl, -⟩ := Prod.mk.inj (Option.some.inj h)
      obtain ⟨channel, next, hcode, fresh⟩ := Call.offered?_eq_some hoffered
      exact .accept hcall hcode fresh
  | resume id answer =>
      obtain ⟨call, hcall, h⟩ := Option.bind_eq_some_iff.mp h
      obtain ⟨code, hresume, h⟩ := Option.bind_eq_some_iff.mp h
      obtain ⟨rfl, -⟩ := Prod.mk.inj (Option.some.inj h)
      obtain ⟨op, next, outcome, hcode, permitted, confirmed, rfl⟩ := Call.resume?_eq_some hresume
      exact .resume hcall hcode permitted confirmed

end Step

/-! ## Whole runs -/

section Runs

variable {lib : Pydantic Datetime} {s t : Broker Datetime ε} {call : Call Datetime ε}

/-- The call is at some history of its contract, and `ds` is what that history
has accepted and the message that is taken but not confirmed. -/
def Call.Tracked (lib : Pydantic Datetime) (call : Call Datetime ε) (ds : List Delivery) : Prop :=
  ∃ h : CallHistory ε,
    Contract Permitted (AllOrNothing (call.publisher.deliveries lib call.event))
      (Exact (call.publisher.deliveries lib call.event)) h call.code ∧
    ds = accepted h ++ call.pending

structure Broker.Tracked (lib : Pydantic Datetime) (s : Broker Datetime ε) : Prop where
  calls : ∀ {id : Nat} {call : Call Datetime ε}, s.calls[id]? = some call →
    call.Tracked lib (s.acceptedFrom id)
  started : ∀ {id : Nat} {delivery : Delivery}, (id, delivery) ∈ s.exchange → id < s.calls.length

theorem accepted_append (h k : CallHistory ε) : accepted (h ++ k) = accepted h ++ accepted k :=
  List.filterMap_append

theorem accepted_logged (lines : List String) :
    accepted (lines.map .logged : CallHistory ε) = [] := by
  simp [accepted]

theorem Call.pending_eq_nil (h : call.sent = false) : call.pending = [] := by
  simp [Call.pending, h]

theorem Broker.acceptedFrom_append (calls : List (Call Datetime ε))
    (exchange : List (Nat × Delivery)) (id other : Nat) (delivery : Delivery) :
    (⟨calls, exchange ++ [(id, delivery)]⟩ : Broker Datetime ε).acceptedFrom other =
      (⟨calls, exchange⟩ : Broker Datetime ε).acceptedFrom other ++
        if id = other then [delivery] else [] := by
  by_cases h : id = other <;> simp [Broker.acceptedFrom, h]

/-- Nothing has been accepted from a call that has not started. -/
theorem Broker.Tracked.acceptedFrom_eq_nil {id : Nat} (h : s.Tracked lib)
    (late : s.calls.length ≤ id) : s.acceptedFrom id = [] := by
  rw [Broker.acceptedFrom, List.map_eq_nil_iff, List.filter_eq_nil_iff]
  rintro ⟨own, delivery⟩ hmem hid
  obtain rfl : own = id := by simpa using hid
  have early := h.started hmem
  omega

theorem Call.Tracked.start (publisher : EventPublisher) (event : Event Datetime) :
    (⟨publisher, event, (publisher.publish lib event).settle.2, false⟩ :
      Call Datetime ε).Tracked lib [] := by
  have contract := (EventPublisher.publish_contract lib event publisher
    (show accepted ([] : CallHistory ε) = [] from rfl)).settle
  refine ⟨_, contract, ?_⟩
  rw [List.nil_append, accepted_logged, Call.pending_eq_nil rfl, List.append_nil]

theorem Call.Tracked.take {ds : List Delivery} {channel : Channel} {delivery : Delivery}
    {next : Except (PublishExn ε) Unit → Publishing ε Unit} (h : call.Tracked lib ds)
    (code : call.code = .await (.publish channel delivery) next) (fresh : call.pending = []) :
    call.take.Tracked lib (ds ++ [delivery]) := by
  obtain ⟨history, contract, rfl⟩ := h
  have pending : call.take.pending = [delivery] := by simp [Call.pending, Call.take, code]
  refine ⟨history, contract, ?_⟩
  rw [fresh, pending, List.append_nil]

theorem Call.Tracked.goOn {ds : List Delivery} {op : ChannelOp}
    {next : Except (PublishExn ε) op.Reply → Publishing ε Unit}
    {outcome : Except (PublishExn ε) op.Reply} (h : call.Tracked lib ds)
    (code : call.code = .await op next) (permitted : Permitted op outcome)
    (confirmed : accepted [.answered op outcome] = call.pending) :
    (call.goOn (next outcome)).Tracked lib ds := by
  obtain ⟨history, contract, rfl⟩ := h
  rw [code] at contract
  have none : (call.goOn (next outcome)).pending = [] := Call.pending_eq_nil rfl
  refine ⟨_, (contract.resume permitted).settle, ?_⟩
  rw [accepted_append, accepted_append, accepted_logged, confirmed, none, List.append_nil,
    List.append_nil]

/-- After a call is replaced, a call is the new one or was there before. -/
theorem eq_or_getElem?_of_set {calls : List (Call Datetime ε)} {id other : Nat}
    {new found : Call Datetime ε} (h : (calls.set id new)[other]? = some found) :
    (id = other ∧ found = new) ∨ (id ≠ other ∧ calls[other]? = some found) := by
  rw [List.getElem?_set] at h
  split_ifs at h with same
  · exact .inl ⟨same, (Option.some.inj h).symm⟩
  · exact .inr ⟨same, h⟩

/-- Every step keeps every call at its contract. -/
theorem Broker.Tracked.move {a : Action Datetime ε} (h : s.Tracked lib) (move : s.Move lib a t) :
    t.Tracked lib := by
  cases move with
  | publish =>
      constructor
      · intro id call hcall
        rcases Nat.lt_or_ge id s.calls.length with early | late
        · rw [List.getElem?_append_left early] at hcall
          exact h.calls hcall
        · rw [List.getElem?_append_right late, List.getElem?_singleton] at hcall
          split_ifs at hcall
          obtain rfl := Option.some.inj hcall
          have nothing := h.acceptedFrom_eq_nil late
          rw [Broker.acceptedFrom] at nothing ⊢
          rw [nothing]
          exact .start _ _
      · intro id delivery hmem
        have early := h.started hmem
        rw [List.length_append]
        omega
  | @accept id call channel delivery next at_call code fresh =>
      constructor
      · intro other found hfound
        rw [Broker.acceptedFrom_append]
        rcases eq_or_getElem?_of_set hfound with ⟨rfl, rfl⟩ | ⟨hne, hfound⟩
        · rw [if_pos rfl]
          exact (h.calls at_call).take code fresh
        · rw [if_neg hne, List.append_nil]
          exact h.calls hfound
      · intro other taken hmem
        rw [List.length_set]
        rcases List.mem_append.mp hmem with hmem | hmem
        · exact h.started hmem
        · obtain ⟨rfl, -⟩ := Prod.mk.inj (List.mem_singleton.mp hmem)
          exact (List.getElem?_eq_some_iff.mp at_call).1
  | resume at_call code permitted confirmed =>
      constructor
      · intro other found hfound
        rcases eq_or_getElem?_of_set hfound with ⟨rfl, rfl⟩ | ⟨_, hfound⟩
        · exact (h.calls at_call).goOn code permitted confirmed
        · exact h.calls hfound
      · intro other delivery hmem
        rw [List.length_set]
        exact h.started hmem

theorem Broker.Tracked.empty : (.empty : Broker Datetime ε).Tracked lib where
  calls := by
    intro id call h
    cases h
  started := by
    intro id delivery h
    cases h

theorem Broker.tracked_of_run {as : List (Action Datetime ε)} {es : List (Nat × String)}
    (run : Run (Broker.step lib) .empty as es s) : s.Tracked lib :=
  run.invariant (I := fun _ s => s.Tracked lib) .empty fun _ h hstep => h.move (.of_step hstep)

theorem map_request_set {calls : List (Call Datetime ε)} {id : Nat} {new : Call Datetime ε}
    (h : calls[id]? = some call) (same : new.request = call.request) :
    (calls.set id new).map Call.request = calls.map Call.request := by
  obtain ⟨hlt, rfl⟩ := List.getElem?_eq_some_iff.mp h
  apply List.ext_getElem?
  intro other
  rw [List.map_set, List.getElem?_set]
  split_ifs with hid hlength
  · subst hid
    simp [same, hlt]
  · simp at hlength
    omega
  · rfl

/-- The calls are the publishes of the schedule, in their order. -/
theorem Broker.calls_of_run {as : List (Action Datetime ε)} {es : List (Nat × String)}
    (run : Run (Broker.step lib) .empty as es s) : s.calls.map Call.request = publishes as := by
  induction run with
  | refl => rfl
  | snoc _ hstep ih =>
      rw [publishes, List.filterMap_append, ← publishes, ← ih]
      cases Broker.Move.of_step hstep with
      | publish => simp [Call.request]
      | @accept _ call _ _ _ at_call =>
          have same := map_request_set at_call (show call.take.request = call.request from rfl)
          exact same.trans (List.append_nil _).symm
      | @resume _ _ call _ next outcome at_call =>
          have same := map_request_set at_call
            (show (call.goOn (next outcome)).request = call.request from rfl)
          exact same.trans (List.append_nil _).symm

/-- At every moment the exchange has accepted nothing from a call, or exactly
what the call is to deliver. -/
theorem Call.Tracked.all_or_nothing {ds : List Delivery} (h : call.Tracked lib ds) :
    ds = [] ∨ ds = call.publisher.deliveries lib call.event := by
  obtain ⟨history, contract, rfl⟩ := h
  unfold Call.pending
  split
  · rename_i channel delivery next hcode _
    -- A publish that is taken may end normally, and the contract covers that history.
    rw [hcode] at contract
    have next := (contract.resume
      (show Permitted (.publish channel delivery) (.ok ()) from trivial)).now
    rwa [AllOrNothing, accepted_snoc_publish_ok] at next
  · rw [List.append_nil]
    exact contract.now

/-- A call that ended says by its outcome whether everything was accepted. -/
theorem Call.Tracked.exact {ds : List Delivery} {outcome : Except (PublishExn ε) Unit}
    (h : call.Tracked lib ds) (ended : call.code = .done outcome) :
    ds = delivered (call.publisher.deliveries lib call.event) outcome := by
  obtain ⟨history, contract, rfl⟩ := h
  have pending : call.pending = [] := by simp [Call.pending, ended]
  rw [ended] at contract
  rw [pending, List.append_nil]
  exact contract.result

theorem Broker.mem_acceptedFrom {id : Nat} {delivery : Delivery} :
    delivery ∈ s.acceptedFrom id ↔ (id, delivery) ∈ s.exchange := by
  simp [Broker.acceptedFrom]

theorem Broker.exists_of_outcome? {id : Nat} {outcome : Except (PublishExn ε) Unit}
    (h : s.outcome? id = some outcome) :
    ∃ call, s.calls[id]? = some call ∧ call.code = .done outcome := by
  unfold Broker.outcome? at h
  split at h
  · rename_i publisher event own sent hcall
    obtain rfl := Option.some.inj h
    exact ⟨_, hcall, rfl⟩
  · cases h

/-- What is owed to the consumers and to the callers of a schedule of publishes.
A message of the exchange is decoded to the very event that its call published;
a call has at most one message; and a call that ended returned normally exactly
when its message was accepted. -/
structure Delivered (lib : Pydantic Datetime) (new : Factories Datetime)
    (as : List (Action Datetime ε)) (s : Broker Datetime ε) : Prop where
  decodes : ∀ {id : Nat} {delivery : Delivery}, (id, delivery) ∈ s.exchange →
    ∃ publisher event, (publishes as)[id]? = some (publisher, event) ∧
      consume lib new delivery.routingKey delivery.message.body = .ok event ∧
      delivery.message.messageId = event.eventId.str
  once : ∀ id, (s.acceptedFrom id).length ≤ 1
  exact : ∀ {id : Nat} {outcome : Except (PublishExn ε) Unit}, s.outcome? id = some outcome →
    (outcome = .ok () ↔ ∃ delivery, (id, delivery) ∈ s.exchange)

/-- Nothing is lost and nothing is confused between publishers and consumers,
for every schedule of publishes of declared events through stacks of publishers
that deliver. -/
theorem delivered_of_run {new : Factories Datetime} {as : List (Action Datetime ε)}
    {es : List (Nat × String)} (faithful : lib.RoundTrips)
    (published : ∀ request ∈ publishes as, request.1.Delivers ∧ request.2.type ∈ eventTypes)
    (run : Run (Broker.step lib) .empty as es s) : Delivered lib new as s := by
  have tracked := Broker.tracked_of_run run
  have request : ∀ {id : Nat} {call : Call Datetime ε}, s.calls[id]? = some call →
      (publishes as)[id]? = some (call.publisher, call.event) := by
    intro id call hcall
    rw [← Broker.calls_of_run run, List.getElem?_map, hcall]
    rfl
  constructor
  · intro id delivery hmem
    have hlt := tracked.started hmem
    have hcall : s.calls[id]? = some s.calls[id] := List.getElem?_eq_getElem hlt
    have taken := Broker.mem_acceptedFrom.mpr hmem
    have declared := (published _ (List.mem_of_getElem? (request hcall))).2
    refine ⟨_, _, request hcall, ?_⟩
    rcases (tracked.calls hcall).all_or_nothing with none | all
    · rw [none] at taken
      cases taken
    · rcases s.calls[id].publisher.deliveries_eq lib s.calls[id].event with
        none | ⟨exchangeName, key, routed, one⟩
      · rw [all, none] at taken
        cases taken
      · rw [all, one] at taken
        obtain rfl := List.mem_singleton.mp taken
        exact ⟨consume_modelDumpJson faithful declared routed, rfl⟩
  · intro id
    rcases Nat.lt_or_ge id s.calls.length with hlt | late
    · rcases (tracked.calls (List.getElem?_eq_getElem hlt)).all_or_nothing with none | all
      · simp [none]
      · rcases s.calls[id].publisher.deliveries_eq lib s.calls[id].event with
          none | ⟨exchangeName, key, _, one⟩
        · simp [all, none]
        · simp [all, one]
    · simp [tracked.acceptedFrom_eq_nil late]
  · intro id outcome h
    obtain ⟨call, hcall, ended⟩ := Broker.exists_of_outcome? h
    obtain ⟨delivers, declared⟩ := published _ (List.mem_of_getElem? (request hcall))
    have some_delivery := delivers.deliveries_ne_nil lib (isSome_routingKey declared)
    have settled := (tracked.calls hcall).exact ended
    cases outcome with
    | ok reply =>
        obtain ⟨delivery, hmem⟩ := List.exists_mem_of_ne_nil _ some_delivery
        have hmem : delivery ∈ s.acceptedFrom id := settled ▸ hmem
        exact ⟨fun _ => ⟨delivery, Broker.mem_acceptedFrom.mp hmem⟩, fun _ => rfl⟩
    | error exn =>
        constructor
        · rintro ⟨⟩
        · rintro ⟨delivery, hmem⟩
          have hmem := Broker.mem_acceptedFrom.mpr hmem
          rw [settled] at hmem
          cases hmem

end Runs

/-- A string value of an object, or `none` for `null`. -/
def stringOrNull : Json → Option String
  | .str s => some s
  | _ => none

/-- JSON in the form of pydantic, but with every control character written by its
number, for a clock that stands still. -/
def Pydantic.sample : Pydantic Unit where
  encode
    | .uuid, u => .str u.str
    | .datetime, _ => .str "2026-01-01T00:00:00Z"
    | .str, s => .str s
    | .optionalUuid, u => u.elim .null fun u => .str u.str
  decode
    | .uuid, .str s => Uuid.ofStr? s
    | .datetime, .str s => if s = "2026-01-01T00:00:00Z" then some () else none
    | .str, .str s => some s
    | .optionalUuid, .null => some none
    | .optionalUuid, .str s => (Uuid.ofStr? s).map some
    | _, _ => none
  dumps items := JsonText.writeObject (items.map fun item => (item.1, stringOrNull item.2))
  loads text := (JsonText.readObject text).map fun items =>
    .dict (items.map fun item => (item.1, item.2.elim .null .str))

theorem Pydantic.sample_roundTrips : Pydantic.sample.RoundTrips where
  decode_encode := by
    intro type value
    cases type with
    | uuid => simp only [Pydantic.sample, Uuid.ofStr?_str]
    | datetime => rfl
    | str => rfl
    | optionalUuid =>
        cases value with
        | none => rfl
        | some u => simp only [Pydantic.sample, Option.elim_some, Uuid.ofStr?_str, Option.map_some]
  loads_dumps := by
    intro items _ encoded
    have same : ∀ item ∈ items, (item.1, (stringOrNull item.2).elim .null .str) = item := by
      rintro ⟨name, json⟩ hitem
      obtain ⟨type, value, rfl⟩ : ∃ (type : FieldType) (value : type.Value Unit),
        json = Pydantic.sample.encode type value := encoded _ hitem
      cases type with
      | uuid | datetime | str => rfl
      | optionalUuid => cases value <;> rfl
    have back : items.map (fun item => (item.1, (stringOrNull item.2).elim .null .str)) = items :=
      (List.map_congr_left same).trans (List.map_id items)
    simpa [Pydantic.sample, JsonText.readObject_writeObject, Function.comp_def] using back

def Event.sampleDeletion : Event Unit where
  type := .userDeleted
  values := (⟨1⟩, (), ⟨2⟩, ())

def Event.sampleUpdate : Event Unit where
  type := .profileUpdated
  values := (⟨3⟩, (), ⟨4⟩, ⟨2⟩, "Name", "creator", none, ())

/-- Two calls take turns. The deletion goes through two echoing publishers and
is delivered; the update loses its channel while it is published. -/
def Action.sampleSchedule : List (Action Unit String) :=
  [.publish (.echoing (.echoing (.rabbit exchangeName))) .sampleDeletion,
    .publish (.rabbit exchangeName) .sampleUpdate,
    .resume 0 (.acquired (.ok 1)), .resume 1 (.acquired (.ok 2)),
    .resume 1 (.declared (.ok ())), .resume 0 (.declared (.ok ())), .accept 0,
    .resume 1 (.published (.error (.channel "channel closed"))),
    .resume 0 (.published (.ok ())), .resume 1 .released, .resume 0 .released]

/-- Of the two interleaved calls the first is delivered and echoed twice. -/
theorem delivered_of_run_interleaved : ∃ es s,
    Run (Broker.step .sample) .empty Action.sampleSchedule es s ∧
      s.exchange.map Prod.fst = [0] ∧ es.map Prod.fst = [0, 0] ∧
      Delivered .sample ⟨⟨5⟩, ()⟩ Action.sampleSchedule s := by
  have hrun : (exec (Broker.step .sample) .empty Action.sampleSchedule).map
      (fun r => (r.1.exchange.map Prod.fst, r.2.map Prod.fst)) = some ([0], [0, 0]) := by
    decide +kernel
  obtain ⟨es, s, run, observed⟩ :=
    Run.of_exec_map (f := fun es (s : Broker Unit String) =>
      (s.exchange.map Prod.fst, es.map Prod.fst)) hrun
  obtain ⟨hexchange, hlog⟩ := Prod.mk.inj observed
  have published : ∀ request ∈ publishes Action.sampleSchedule,
      request.1.Delivers ∧ request.2.type ∈ eventTypes := by
    have requests : publishes Action.sampleSchedule =
        [(.echoing (.echoing (.rabbit exchangeName)), .sampleDeletion),
          (.rabbit exchangeName, .sampleUpdate)] := rfl
    have deletion : EventType.userDeleted ∈ eventTypes := by
      simp [eventTypes_eq, EventType.subclasses]
    have update : EventType.profileUpdated ∈ eventTypes := by
      simp [eventTypes_eq, EventType.subclasses]
    rw [requests]
    intro request hmem
    rcases List.mem_pair.mp hmem with rfl | rfl
    · exact ⟨.echoing (.echoing .rabbit), deletion⟩
    · exact ⟨.rabbit, update⟩
  exact ⟨es, s, run, hexchange, hlog,
    delivered_of_run Pydantic.sample_roundTrips published run⟩

end MestoryCore.Events
