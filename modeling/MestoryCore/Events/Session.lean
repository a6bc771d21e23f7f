import MestoryCore.Asyncio.Machine
import MestoryCore.Events.Delivery

/-!
# The session of a call with the channel pool

A call of any stack of publishers takes a channel from the pool, declares the
exchange, publishes to it, and gives the channel back. `Session` is this as a
machine of five states, which moves with the answers that the call gets. The
calls of a broker follow it, so what a call awaits depends on its own answers
only, however the calls are interleaved.
-/

namespace MestoryCore.Events

open Python Asyncio Transition

variable {Datetime ε : Type}

inductive Session (ε : Type) where
  | acquiring (exchangeName : String)
  | declaring (channel : Channel) (exchangeName : String)
  | publishing (channel : Channel) (delivery : Delivery)
  | releasing (channel : Channel) (outcome : Except (PublishExn ε) Unit)
  | ended (outcome : Except (PublishExn ε) Unit)

/-- The answer that an outcome is. -/
def Answer.of : (op : ChannelOp) → Except (PublishExn ε) op.Reply → Answer ε
  | .acquire, outcome => .acquired outcome
  | .declareExchange _ _, outcome => .declared outcome
  | .publish _ _, outcome => .published outcome
  | .release _, _ => .released

namespace Session

/-- A call of a stack with no `RabbitEventPublisher` awaits nothing. -/
def start (event : Event Datetime) : EventPublisher → Session ε
  | .logging => .ended (event.routingKey.map fun _ => ())
  | .rabbit exchangeName => .acquiring exchangeName
  | .echoing inner => start event inner

def status : Session ε → Status ChannelOp (PublishExn ε) Unit
  | .acquiring _ => .awaiting .acquire
  | .declaring channel exchangeName =>
      .awaiting (.declareExchange channel ⟨exchangeName, .topic, true, false⟩)
  | .publishing channel delivery => .awaiting (.publish channel delivery)
  | .releasing channel _ => .awaiting (.release channel)
  | .ended outcome => .ended outcome

/-- With the exchange declared, the event is published, or its missing routing
key ends the session. -/
def declared (lib : Pydantic Datetime) (event : Event Datetime) (channel : Channel)
    (exchangeName : String) : Session ε :=
  match event.routingKey with
  | .ok key => .publishing channel ⟨exchangeName, key.value, event.message lib⟩
  | .error exn => .releasing channel (.error exn)

def next (lib : Pydantic Datetime) (event : Event Datetime) :
    Session ε → Answer ε → Option (Session ε)
  | .acquiring exchangeName, .acquired (.ok channel) => some (.declaring channel exchangeName)
  | .acquiring _, .acquired (.error exn) => some (.ended (.error exn))
  | .declaring channel exchangeName, .declared (.ok _) =>
      some (declared lib event channel exchangeName)
  | .declaring channel _, .declared (.error exn) => some (.releasing channel (.error exn))
  | .publishing channel _, .published outcome => some (.releasing channel outcome)
  | .releasing _ outcome, .released => some (.ended outcome)
  | _, _ => none

/-- The session of a call that publishes `event`. -/
def machine (lib : Pydantic Datetime) (event : Event Datetime) :
    Machine ChannelOp ChannelOp.Reply (PublishExn ε) Unit where
  State := Session ε
  Answer := Answer ε
  answer := Answer.of
  status := status
  next := next lib event

/-- Where a call is after some answers. -/
def after (lib : Pydantic Datetime) (publisher : EventPublisher) (event : Event Datetime)
    (answers : List (Answer ε)) : Option (Session ε) :=
  (machine lib event).run (start event publisher) answers

end Session

/-- What a call of the publisher writes to the log when it returns. -/
def EventPublisher.lines (lib : Pydantic Datetime) (event : Event Datetime) :
    EventPublisher → List String
  | .logging => event.type.routingKey.toList.map fun key =>
      s!"mestory event {key.value}: {event.modelDumpJson lib}"
  | .rabbit _ => []
  | .echoing inner => inner.lines lib event ++ event.type.routingKey.toList.map fun key =>
      s!"mestory event {key.value} (echoed): {event.modelDumpJson lib}"

/-- A call that returns has published an event with a routing key and has
written all its lines; a call that raises has written nothing. -/
def Announced (lib : Pydantic Datetime) (publisher : EventPublisher) (event : Event Datetime)
    (outcome : Except (PublishExn ε) Unit) (lines : List String) : Prop :=
  match outcome with
  | .ok _ => event.type.routingKey.isSome ∧ lines = publisher.lines lib event
  | .error _ => lines = []

/-- The message that a call with this status offers. -/
def offer : Option (Status ChannelOp (PublishExn ε) Unit) → Bool → Option Delivery
  | some (.awaiting (.publish _ delivery)), false => some delivery
  | _, _ => none

/-- Whether a call with this status can get the answer. -/
def fits : Option (Status ChannelOp (PublishExn ε) Unit) → Bool → Answer ε → Bool
  | some (.awaiting .acquire), _, .acquired _ => true
  | some (.awaiting (.declareExchange _ _)), _, .declared _ => true
  | some (.awaiting (.publish _ _)), sent, .published outcome => outcome.isOk = sent
  | some (.awaiting (.release _)), _, .released => true
  | _, _, _ => false

/-- The answers that a schedule gives to a call. -/
def answersTo (id : Nat) (as : List (Action Datetime ε)) : List (Answer ε) :=
  as.filterMap fun
    | .resume own answer => if own = id then some answer else none
    | _ => none

/-! ## One call -/

section Call

variable {lib : Pydantic Datetime} {event : Event Datetime} {call : Call Datetime ε}
variable {answers : List (Answer ε)} {session : Session ε}

/-- A publisher reads the routing key and writes one line with it. -/
theorem settle_log (line : RoutingKey → String) :
    (do
      let key ← .done event.routingKey
      Coroutine.write (line key) : Publishing ε Unit).settle =
      (event.type.routingKey.toList.map line, .done (event.routingKey.map fun _ => ())) := by
  unfold Event.routingKey
  split
  · rename_i key hkey
    rw [hkey]
    rfl
  · rename_i hkey
    rw [hkey]
    rfl

variable {Q : Except (PublishExn ε) Unit → List String → Prop} {channel : Channel}
variable {exchangeName : String} {outcome : Except (PublishExn ε) Unit}

/-- However the body ended, the channel is given back and the outcome is kept. -/
theorem release_follows (post : Q outcome []) :
    (Session.machine lib event).Follows Permitted Q (.releasing channel outcome)
      (do channel.release; .done outcome : Publishing ε Unit) := by
  refine ⟨rfl, ?_⟩
  rintro _ rfl
  exact ⟨.ended outcome, rfl, rfl, post⟩

/-- With the exchange declared, the call publishes the event if it has a routing key. -/
theorem declared_follows (returned : event.type.routingKey.isSome → Q (.ok ()) [])
    (raised : ∀ exn, Q (.error exn) []) :
    (Session.machine lib event).Follows Permitted Q
      (Session.declared lib event channel exchangeName)
      (Coroutine.andThen (do
          let key ← .done event.routingKey
          Exchange.publish ⟨channel, exchangeName⟩ (event.message lib) key.value :
            Publishing ε Unit)
        fun result => do channel.release; .done result) := by
  unfold Session.declared Event.routingKey
  cases hkey : event.type.routingKey with
  | none => exact release_follows (raised _)
  | some key =>
      refine ⟨rfl, ?_⟩
      intro outcome _
      refine ⟨.releasing channel outcome, rfl, release_follows ?_⟩
      cases outcome with
      | ok reply => exact returned (by simp [hkey])
      | error exn => exact raised exn

theorem rabbit_follows (returned : event.type.routingKey.isSome → Q (.ok ()) [])
    (raised : ∀ exn, Q (.error exn) []) :
    (Session.machine lib event).Follows Permitted Q (.acquiring exchangeName)
      ((EventPublisher.rabbit exchangeName).publish lib event : Publishing ε Unit) := by
  refine ⟨rfl, ?_⟩
  rintro (exn | channel) _
  · exact ⟨.ended (.error exn), rfl, rfl, raised exn⟩
  refine ⟨.declaring channel exchangeName, rfl, rfl, ?_⟩
  rintro (exn | reply) _
  · exact ⟨.releasing channel (.error exn), rfl, release_follows (raised exn)⟩
  · exact ⟨_, rfl, declared_follows returned raised⟩

/-- A call of a publisher follows the session of its event. -/
theorem EventPublisher.publish_follows (lib : Pydantic Datetime) (event : Event Datetime)
    (publisher : EventPublisher) :
    (Session.machine lib event).Follows Permitted
      (Announced lib publisher event) (Session.start event publisher)
      (publisher.publish lib event : Publishing ε Unit) := by
  induction publisher with
  | logging =>
      refine .of_ended rfl (settle_log _) ?_
      unfold Event.routingKey
      split
      · rename_i key hkey
        exact ⟨by simp [hkey], rfl⟩
      · rename_i hkey
        simp [hkey, Announced, Except.map]
  | rabbit exchangeName => exact rabbit_follows (fun routed => ⟨routed, rfl⟩) fun _ => rfl
  | echoing inner ih =>
      apply ih.andThen
      rintro (exn | reply) written announced
      · exact ⟨[], rfl, by simpa [Announced] using announced⟩
      · obtain ⟨routed, rfl⟩ := announced
        obtain ⟨key, hkey⟩ := Option.isSome_iff_exists.mp routed
        refine ⟨_, (settle_log _).trans ?_, routed, rfl⟩
        rw [routingKey_eq_ok_iff.mpr hkey]
        rfl

theorem Call.offered?_eq_offer (call : Call Datetime ε) :
    call.offered? = offer call.code.status? call.sent := by
  obtain ⟨publisher, event, code, sent⟩ := call
  cases code with
  | done | log => rfl
  | await op next =>
      cases op <;> cases sent <;> rfl

theorem Call.isSome_resume?_eq_fits (call : Call Datetime ε) (answer : Answer ε) :
    (call.resume? answer).isSome = fits call.code.status? call.sent answer := by
  obtain ⟨publisher, event, code, sent⟩ := call
  cases code with
  | done | log => rfl
  | await op next =>
      cases op <;> cases answer <;> try rfl
      rename_i channel delivery outcome
      simp only [Call.resume?, fits, Coroutine.status?]
      split_ifs with same <;> simp [same]

end Call

/-! ## One step -/

/-- What a step does to the calls and to the log. -/
inductive Broker.Turn (lib : Pydantic Datetime) (s : Broker Datetime ε) :
    Action Datetime ε → Broker Datetime ε → List (Nat × String) → Prop where
  | publish {publisher : EventPublisher} {event : Event Datetime} :
      Turn lib s (.publish publisher event)
        ⟨s.calls ++ [⟨publisher, event, (publisher.publish lib event).settle.2, false⟩],
          s.exchange⟩
        ((publisher.publish lib event : Publishing ε Unit).settle.1.map (s.calls.length, ·))
  | accept {id : Nat} {call : Call Datetime ε} {delivery : Delivery}
      (at_call : s.calls[id]? = some call) (offered : call.offered? = some delivery) :
      Turn lib s (.accept id) ⟨s.calls.set id call.take, s.exchange ++ [(id, delivery)]⟩ []
  | resume {id : Nat} {answer : Answer ε} {call : Call Datetime ε} {code : Publishing ε Unit}
      (at_call : s.calls[id]? = some call) (resumed : call.resume? answer = some code) :
      Turn lib s (.resume id answer) ⟨s.calls.set id (call.goOn code), s.exchange⟩
        (code.settle.1.map (id, ·))

theorem Broker.step_eq_some_iff {lib : Pydantic Datetime} {s t : Broker Datetime ε}
    {a : Action Datetime ε} {fs : List (Nat × String)} :
    Broker.step lib s a = some (t, fs) ↔ s.Turn lib a t fs := by
  constructor
  · intro h
    cases a with
    | publish publisher event =>
        obtain ⟨rfl, rfl⟩ := Prod.mk.inj (Option.some.inj h)
        exact .publish
    | accept id =>
        obtain ⟨call, hcall, h⟩ := Option.bind_eq_some_iff.mp h
        obtain ⟨delivery, offered, h⟩ := Option.bind_eq_some_iff.mp h
        obtain ⟨rfl, rfl⟩ := Prod.mk.inj (Option.some.inj h)
        exact .accept hcall offered
    | resume id answer =>
        obtain ⟨call, hcall, h⟩ := Option.bind_eq_some_iff.mp h
        obtain ⟨code, resumed, h⟩ := Option.bind_eq_some_iff.mp h
        obtain ⟨rfl, rfl⟩ := Prod.mk.inj (Option.some.inj h)
        exact .resume hcall resumed
  · intro h
    cases h with
    | publish => rfl
    | accept hcall offered => simp [Broker.step, hcall, offered]
    | resume hcall resumed => simp [Broker.step, hcall, resumed]

/-! ## Whole runs -/

section Runs

variable {lib : Pydantic Datetime} {s t : Broker Datetime ε} {call : Call Datetime ε}
variable {as : List (Action Datetime ε)} {es : List (Nat × String)}
variable {answers : List (Answer ε)} {session : Session ε}

theorem Broker.outcome?_eq_some_iff {id : Nat} {outcome : Except (PublishExn ε) Unit} :
    s.outcome? id = some outcome ↔
      ∃ call, s.calls[id]? = some call ∧ call.code = .done outcome := by
  constructor
  · exact Broker.exists_of_outcome?
  · rintro ⟨⟨publisher, event, code, sent⟩, hcall, rfl⟩
    simp [Broker.outcome?, hcall]

/-- Where a call is. -/
def Call.after (lib : Pydantic Datetime) (call : Call Datetime ε) (answers : List (Answer ε)) :
    Option (Session ε) :=
  Session.after lib call.publisher call.event answers

/-- The call has been brought by its answers to a state of its session, and goes on from there. -/
structure Call.InSession (lib : Pydantic Datetime) (call : Call Datetime ε)
    (answers : List (Answer ε)) (session : Session ε) : Prop where
  reached : call.after lib answers = some session
  at_code : (Session.machine lib call.event).At Permitted
    (Announced lib call.publisher call.event) session call.code

structure Broker.InSession (lib : Pydantic Datetime) (as : List (Action Datetime ε))
    (s : Broker Datetime ε) : Prop where
  calls : ∀ {id : Nat} {call : Call Datetime ε}, s.calls[id]? = some call →
    ∃ session, call.InSession lib (answersTo id as) session
  started : ∀ {id : Nat}, s.calls.length ≤ id → answersTo id as = []

theorem answersTo_snoc_resume (id own : Nat) (answer : Answer ε) :
    answersTo id (as ++ [.resume own answer]) =
      answersTo id as ++ if own = id then [answer] else [] := by
  by_cases h : own = id <;> simp [answersTo, h]

theorem answersTo_snoc_accept (id own : Nat) :
    answersTo id (as ++ [.accept own]) = answersTo id as := by
  simp [answersTo]

theorem answersTo_snoc_publish (id : Nat) (publisher : EventPublisher) (event : Event Datetime) :
    answersTo id (as ++ [.publish publisher event]) = answersTo id as := by
  simp [answersTo]

/-- An answer is the outcome of the operation that the call awaits. -/
theorem Call.exists_of_resume? {answer : Answer ε} {code : Publishing ε Unit}
    (h : call.resume? answer = some code) :
    ∃ (op : ChannelOp) (next : Except (PublishExn ε) op.Reply → Publishing ε Unit)
      (outcome : Except (PublishExn ε) op.Reply), call.code = .await op next ∧
      Permitted op outcome ∧ Answer.of op outcome = answer ∧ next outcome = code := by
  unfold Call.resume? at h
  split at h
  · rename_i next outcome hcode
    exact ⟨.acquire, next, outcome, hcode, trivial, rfl, Option.some.inj h⟩
  · rename_i channel options next outcome hcode
    exact ⟨.declareExchange channel options, next, outcome, hcode, trivial, rfl,
      Option.some.inj h⟩
  · rename_i channel delivery next outcome hcode
    split at h
    · exact ⟨.publish channel delivery, next, outcome, hcode, trivial, rfl, Option.some.inj h⟩
    · cases h
  · rename_i channel next hcode
    exact ⟨.release channel, next, .ok (), hcode, rfl, rfl, Option.some.inj h⟩
  · cases h

/-- A call starts at the start of its session and writes the lines of that state. -/
theorem Call.InSession.start (lib : Pydantic Datetime) (publisher : EventPublisher)
    (event : Event Datetime) :
    (⟨publisher, event, (publisher.publish lib event).settle.2, false⟩ :
        Call Datetime ε).InSession lib [] (.start event publisher) ∧
      (Session.machine lib event).Writes (Announced lib publisher event)
        (Session.start event publisher : Session ε)
        (publisher.publish lib event : Publishing ε Unit).settle.1 := by
  obtain ⟨at_code, writes⟩ := (publisher.publish_follows (ε := ε) lib event).settle
  exact ⟨⟨rfl, at_code⟩, writes⟩

/-- An answer brings a call to the next state and makes it write the lines of that state. -/
theorem Call.InSession.resume {answer : Answer ε} {code : Publishing ε Unit}
    (h : call.InSession lib answers session) (resumed : call.resume? answer = some code) :
    ∃ reached, session.next lib call.event answer = some reached ∧
      (call.goOn code).InSession lib (answers ++ [answer]) reached ∧
      (Session.machine lib call.event).Writes (Announced lib call.publisher call.event) reached
        code.settle.1 := by
  obtain ⟨op, next, outcome, hcode, permitted, rfl, rfl⟩ := Call.exists_of_resume? resumed
  have at_code := h.at_code
  rw [hcode] at at_code
  obtain ⟨reached, moved, follows⟩ := at_code.resume permitted
  obtain ⟨at_next, writes⟩ := follows.settle
  have before : (Session.machine lib call.event).run (.start call.event call.publisher) answers =
      some session := h.reached
  refine ⟨reached, moved, ⟨?_, at_next⟩, writes⟩
  exact Machine.run_snoc_eq_some_iff.mpr ⟨session, before, moved⟩

/-- After a call is started, a call is the new one or was there before. -/
theorem eq_or_getElem?_of_concat {calls : List (Call Datetime ε)} {id : Nat}
    {new found : Call Datetime ε} (h : (calls ++ [new])[id]? = some found) :
    (id = calls.length ∧ found = new) ∨ calls[id]? = some found := by
  rw [List.getElem?_append] at h
  split_ifs at h with early
  · exact .inr h
  · rw [List.getElem?_singleton] at h
    split_ifs at h with last
    exact .inl ⟨by omega, (Option.some.inj h).symm⟩

/-- Every step keeps every call in its session. -/
theorem Broker.InSession.turn {a : Action Datetime ε} {fs : List (Nat × String)}
    (h : s.InSession lib as) (turn : s.Turn lib a t fs) : t.InSession lib (as ++ [a]) := by
  cases turn with
  | @publish publisher event =>
      constructor
      · intro id call hcall
        rw [answersTo_snoc_publish]
        rcases eq_or_getElem?_of_concat hcall with ⟨rfl, rfl⟩ | hcall
        · rw [h.started (Nat.le_refl _)]
          exact ⟨_, (Call.InSession.start lib publisher event).1⟩
        · exact h.calls hcall
      · intro id late
        rw [List.length_append] at late
        rw [answersTo_snoc_publish]
        apply h.started
        omega
  | accept hcall =>
      constructor
      · intro id found hfound
        rw [answersTo_snoc_accept]
        rcases eq_or_getElem?_of_set hfound with ⟨rfl, rfl⟩ | ⟨_, hfound⟩
        · obtain ⟨session, here⟩ := h.calls hcall
          exact ⟨session, here.reached, here.at_code⟩
        · exact h.calls hfound
      · intro id late
        rw [List.length_set] at late
        rw [answersTo_snoc_accept]
        exact h.started late
  | @resume own _ _ _ hcall resumed =>
      constructor
      · intro id found hfound
        rw [answersTo_snoc_resume]
        rcases eq_or_getElem?_of_set hfound with ⟨rfl, rfl⟩ | ⟨other, hfound⟩
        · obtain ⟨session, here⟩ := h.calls hcall
          obtain ⟨reached, -, there, -⟩ := here.resume resumed
          rw [if_pos rfl]
          exact ⟨reached, there⟩
        · rw [if_neg other, List.append_nil]
          exact h.calls hfound
      · intro id late
        rw [List.length_set] at late
        have early : own < s.calls.length := (List.getElem?_eq_some_iff.mp hcall).1
        have other : own ≠ id := by omega
        rw [answersTo_snoc_resume, if_neg other, List.append_nil]
        exact h.started late

theorem Broker.inSession_of_run (run : Run (Broker.step lib) .empty as es s) :
    s.InSession lib as := by
  induction run with
  | refl =>
      constructor
      · intro id call hcall
        cases hcall
      · intro id _
        rfl
  | snoc _ hstep ih => exact ih.turn (Broker.step_eq_some_iff.mp hstep)

/-- The answers before a state in which the message is still to be accepted. -/
def Session.Since (answers : List (Answer ε)) : Session ε → Prop
  | .acquiring _ => answers = []
  | .declaring channel _ => answers = [.acquired (.ok channel)]
  | .publishing channel _ => answers = [.acquired (.ok channel), .declared (.ok ())]
  | .releasing _ _ => True
  | .ended _ => True

theorem Session.Since.next {event : Event Datetime} {answer : Answer ε} {reached : Session ε}
    (h : session.Since answers) (moved : session.next lib event answer = some reached) :
    reached.Since (answers ++ [answer]) := by
  unfold Session.next at moved
  split at moved
  · obtain rfl := Option.some.inj moved
    obtain rfl : answers = [] := h
    rfl
  · obtain rfl := Option.some.inj moved
    trivial
  · obtain rfl := Option.some.inj moved
    obtain rfl : answers = [_] := h
    unfold Session.declared
    split
    · rfl
    · trivial
  · obtain rfl := Option.some.inj moved
    trivial
  · obtain rfl := Option.some.inj moved
    trivial
  · obtain rfl := Option.some.inj moved
    trivial
  · cases moved

theorem Session.since_of_after {publisher : EventPublisher} {event : Event Datetime}
    (h : Session.after lib publisher event answers = some session) : session.Since answers := by
  induction answers using List.reverseRecOn generalizing session with
  | nil =>
      obtain rfl := Option.some.inj h
      induction publisher with
      | logging => trivial
      | rabbit exchangeName => rfl
      | echoing inner ih => exact ih rfl
  | append_singleton answers answer ih =>
      obtain ⟨before, reached, moved⟩ := Machine.run_snoc_eq_some_iff.mp h
      exact (ih reached).next moved

/-- The message was offered right after its call had acquired the channel and
declared the exchange. -/
def Offered (lib : Pydantic Datetime) (as : List (Action Datetime ε)) (id : Nat)
    (delivery : Delivery) : Prop :=
  ∃ publisher event channel, (publishes as)[id]? = some (publisher, event) ∧
    [.acquired (.ok channel), .declared (.ok ())] <+: answersTo id as ∧
    Session.after lib publisher event
      ([.acquired (.ok channel), .declared (.ok ())] : List (Answer ε)) =
        some (.publishing channel delivery)

/-- Every call awaits and ends with what its session says after its own answers,
and offers its message only there. -/
structure Orderly (lib : Pydantic Datetime) (as : List (Action Datetime ε))
    (s : Broker Datetime ε) : Prop where
  at_session : ∀ {id : Nat} {call : Call Datetime ε}, s.calls[id]? = some call →
    ∃ session, call.after lib (answersTo id as) = some session ∧
      call.code.status? = some session.status
  offered : ∀ {id : Nat} {delivery : Delivery}, (id, delivery) ∈ s.exchange →
    Offered lib as id delivery

theorem Broker.request_of_run (run : Run (Broker.step lib) .empty as es s) {id : Nat}
    (h : s.calls[id]? = some call) : (publishes as)[id]? = some call.request := by
  rw [← Broker.calls_of_run run, List.getElem?_map, h]
  rfl

theorem getElem?_publishes_append {id : Nat} {request : EventPublisher × Event Datetime}
    (bs : List (Action Datetime ε)) (h : (publishes as)[id]? = some request) :
    (publishes (as ++ bs))[id]? = some request := by
  have early := (List.getElem?_eq_some_iff.mp h).1
  rw [publishes, List.filterMap_append, ← publishes, List.getElem?_append_left early, h]

theorem Offered.append {id : Nat} {delivery : Delivery} (h : Offered lib as id delivery)
    (bs : List (Action Datetime ε)) : Offered lib (as ++ bs) id delivery := by
  obtain ⟨publisher, event, channel, request, early, here⟩ := h
  refine ⟨publisher, event, channel, getElem?_publishes_append bs request, ?_, here⟩
  rw [answersTo, List.filterMap_append]
  exact early.trans (List.prefix_append _ _)

/-- Only a call that is publishing offers a message. -/
theorem Call.InSession.eq_publishing {delivery : Delivery} (h : call.InSession lib answers session)
    (offered : call.offered? = some delivery) :
    ∃ channel, session = .publishing channel delivery := by
  obtain ⟨channel, next, hcode, -⟩ := Call.offered?_eq_some offered
  have at_code := h.at_code
  rw [hcode] at at_code
  have status : session.status = .awaiting (.publish channel delivery) := at_code.1
  cases session with
  | publishing own message =>
      cases status
      exact ⟨_, rfl⟩
  | acquiring | declaring | releasing | ended => cases status

/-- A message is offered as it is accepted. -/
theorem Offered.accept (run : Run (Broker.step lib) .empty as es s) {id : Nat} {delivery : Delivery}
    (hcall : s.calls[id]? = some call) (offered : call.offered? = some delivery) :
    Offered lib as id delivery := by
  obtain ⟨session, here⟩ := (Broker.inSession_of_run run).calls hcall
  obtain ⟨channel, rfl⟩ := here.eq_publishing offered
  have answered : answersTo id as = [.acquired (.ok channel), .declared (.ok ())] :=
    Session.since_of_after here.reached
  refine ⟨call.publisher, call.event, channel, Broker.request_of_run run hcall, ?_, ?_⟩
  · rw [answered]
  · rw [← answered]
    exact here.reached

/-- Every call of every schedule keeps to its session. -/
theorem orderly_of_run (run : Run (Broker.step lib) .empty as es s) : Orderly lib as s := by
  constructor
  · intro id call hcall
    obtain ⟨session, here⟩ := (Broker.inSession_of_run run).calls hcall
    exact ⟨session, here.reached, here.at_code.status?_eq⟩
  · induction run with
    | refl =>
        intro id delivery hmem
        cases hmem
    | snoc run hstep ih =>
        intro id delivery hmem
        cases Broker.step_eq_some_iff.mp hstep with
        | publish => exact (ih hmem).append _
        | accept hcall offered =>
            rcases List.mem_append.mp hmem with hmem | hmem
            · exact (ih hmem).append _
            · obtain ⟨rfl, rfl⟩ := Prod.mk.inj (List.mem_singleton.mp hmem)
              exact (Offered.accept run hcall offered).append _
        | resume => exact (ih hmem).append _

end Runs

/-- Of two interleaved calls one has sent its message and the other has lost its channel. -/
theorem orderly_of_run_interleaved : ∃ es s,
    Run (Broker.step .sample) .empty Action.sampleSchedule es s ∧
      s.exchange.map Prod.fst = [0] ∧ answersTo 1 Action.sampleSchedule ≠ [] ∧
      Orderly .sample Action.sampleSchedule s := by
  have hrun : (exec (Broker.step .sample) .empty Action.sampleSchedule).map
      (fun r => r.1.exchange.map Prod.fst) = some [0] := by
    decide +kernel
  obtain ⟨es, s, run, hexchange⟩ :=
    Run.of_exec_map (f := fun _ (s : Broker Unit String) => s.exchange.map Prod.fst) hrun
  exact ⟨es, s, run, hexchange, nofun, orderly_of_run run⟩

end MestoryCore.Events
