import MestoryCore.Asyncio.Coroutine
import MestoryCore.Events.Schemas

/-!
# Event publishers

The three publishers as coroutines over the operations of a pooled AMQP
channel. `Permitted` says how these operations may end: releasing a channel does
not fail, and everything else may.

`publish_contract` is the contract of a call of any stack of publishers. At
every point the exchange has accepted nothing for this call or exactly what
`deliveries` says, and the call returns normally exactly in the second case.
-/

namespace MestoryCore.Events

open Python Asyncio

inductive ExchangeType where
  | fanout
  | direct
  | topic
  | headers
  deriving DecidableEq

inductive DeliveryMode where
  | notPersistent
  | persistent
  deriving DecidableEq

/-- The arguments of `aio_pika.Message`. -/
structure Message where
  body : ByteArray
  contentType : String
  messageId : String
  deliveryMode : DeliveryMode

/-- A message on its way: the exchange, the routing key, and the message. -/
structure Delivery where
  exchange : String
  routingKey : String
  message : Message

structure ExchangeOptions where
  name : String
  type : ExchangeType
  durable : Bool
  autoDelete : Bool

/-- A channel of the pool. -/
abbrev Channel := Nat

/-- The object that `declare_exchange` returns. -/
structure Exchange where
  channel : Channel
  name : String

/-- What a publisher awaits. -/
inductive ChannelOp where
  | acquire
  | declareExchange (channel : Channel) (options : ExchangeOptions)
  | publish (channel : Channel) (delivery : Delivery)
  | release (channel : Channel)

@[reducible] def ChannelOp.Reply : ChannelOp → Type
  | .acquire => Channel
  | .declareExchange _ _ => Unit
  | .publish _ _ => Unit
  | .release _ => Unit

/-- An exception of a publisher's own code, or any that the channel raises. -/
inductive PublishExn (ε : Type) where
  | attributeError (message : String)
  | channel (exn : ε)

/-- Code of a publisher. -/
abbrev Publishing (ε : Type) := Coroutine ChannelOp ChannelOp.Reply String (PublishExn ε)

variable {Datetime ε : Type}

/-- `channel_pool.acquire()`. -/
def acquire : Publishing ε Channel := .perform ChannelOp.acquire

def Channel.release (channel : Channel) : Publishing ε Unit :=
  .perform (ChannelOp.release channel)

def Channel.declareExchange (channel : Channel) (options : ExchangeOptions) :
    Publishing ε Exchange := do
  Coroutine.perform (ChannelOp.declareExchange channel options)
  return ⟨channel, options.name⟩

def Exchange.publish (exchange : Exchange) (message : Message) (routingKey : String) :
    Publishing ε Unit :=
  .perform (ChannelOp.publish exchange.channel ⟨exchange.name, routingKey, message⟩)

/-- `event.routing_key`. -/
def Event.routingKey (event : Event Datetime) : Except (PublishExn ε) RoutingKey :=
  match event.type.routingKey with
  | some key => .ok key
  | none => .error (.attributeError
      s!"'{event.type.name}' object has no attribute 'routing_key'")

/-- The message that carries an event. -/
def Event.message (lib : Pydantic Datetime) (event : Event Datetime) : Message where
  body := (event.modelDumpJson lib).toUTF8
  contentType := "application/json"
  messageId := event.eventId.str
  deliveryMode := .persistent

/-- `LoggingEventPublisher`, `RabbitEventPublisher`, and `EchoingEventPublisher`. -/
inductive EventPublisher where
  | logging
  | rabbit (exchangeName : String)
  | echoing (inner : EventPublisher)

/-- `publisher.publish(event)`. -/
def EventPublisher.publish (lib : Pydantic Datetime) (event : Event Datetime) :
    EventPublisher → Publishing ε Unit
  | .logging => do
      let key ← .done event.routingKey
      Coroutine.write s!"mestory event {key.value}: {event.modelDumpJson lib}"
  | .rabbit exchangeName =>
      .asyncWith acquire Channel.release fun channel => do
        let exchange ← channel.declareExchange ⟨exchangeName, .topic, true, false⟩
        let key ← .done event.routingKey
        exchange.publish (event.message lib) key.value
  | .echoing inner => do
      inner.publish lib event
      let key ← .done event.routingKey
      Coroutine.write s!"mestory event {key.value} (echoed): {event.modelDumpJson lib}"

/-- The publisher has a `RabbitEventPublisher` at the bottom of its stack. -/
inductive EventPublisher.Delivers : EventPublisher → Prop where
  | rabbit {exchangeName : String} : Delivers (.rabbit exchangeName)
  | echoing {inner : EventPublisher} (h : Delivers inner) : Delivers (.echoing inner)

namespace EventPublisher

/-- What a call of the publisher delivers when it returns. -/
def deliveries (lib : Pydantic Datetime) (event : Event Datetime) :
    EventPublisher → List Delivery
  | .logging => []
  | .rabbit exchangeName =>
      event.type.routingKey.toList.map fun key => ⟨exchangeName, key.value, event.message lib⟩
  | .echoing inner => inner.deliveries lib event

/-- A publisher delivers nothing, or one message that carries the event under
its routing key. -/
theorem deliveries_eq (lib : Pydantic Datetime) (event : Event Datetime)
    (publisher : EventPublisher) :
    publisher.deliveries lib event = [] ∨ ∃ exchangeName key,
      event.type.routingKey = some key ∧
      publisher.deliveries lib event = [⟨exchangeName, key.value, event.message lib⟩] := by
  induction publisher with
  | logging => exact .inl rfl
  | rabbit exchangeName =>
      cases hkey : event.type.routingKey with
      | none => exact .inl (by simp [deliveries, hkey])
      | some key => exact .inr ⟨exchangeName, key, rfl, by simp [deliveries, hkey]⟩
  | echoing inner ih => exact ih

theorem Delivers.deliveries_ne_nil {event : Event Datetime} {publisher : EventPublisher}
    (lib : Pydantic Datetime) (h : publisher.Delivers) (routed : event.type.routingKey.isSome) :
    publisher.deliveries lib event ≠ [] := by
  induction h with
  | rabbit =>
      obtain ⟨key, hkey⟩ := Option.isSome_iff_exists.mp routed
      simp [deliveries, hkey]
  | echoing _ ih => exact ih

end EventPublisher

/-! ## The contract of one call -/

/-- What has happened to one call. -/
abbrev CallHistory (ε : Type) := List (Effect ChannelOp ChannelOp.Reply String (PublishExn ε))

/-- Releasing a channel does not fail. -/
def Permitted : (op : ChannelOp) → Except (PublishExn ε) op.Reply → Prop
  | .release _, outcome => outcome = .ok ()
  | _, _ => True

/-- The messages that the exchange has accepted for the call. -/
def accepted (h : CallHistory ε) : List Delivery :=
  h.filterMap fun
    | .answered (.publish _ delivery) (.ok _) => some delivery
    | _ => none

/-- The exchange has accepted nothing, or all that is to be delivered. -/
def AllOrNothing (ds : List Delivery) (h : CallHistory ε) : Prop :=
  accepted h = [] ∨ accepted h = ds

/-- What is delivered when a call ends: everything when it returns, nothing
when it raises. -/
def delivered {α : Type} (ds : List Delivery) : Except (PublishExn ε) α → List Delivery
  | .ok _ => ds
  | .error _ => []

def Exact {α : Type} (ds : List Delivery) (h : CallHistory ε)
    (outcome : Except (PublishExn ε) α) : Prop :=
  accepted h = delivered ds outcome

section Contract

variable {lib : Pydantic Datetime} {event : Event Datetime}

/-- Only a message that the exchange accepts adds to what it has accepted. -/
theorem accepted_snoc_of_not_publish (h : CallHistory ε) {op : ChannelOp}
    (outcome : Except (PublishExn ε) op.Reply)
    (other : ∀ channel delivery, op ≠ .publish channel delivery) :
    accepted (h ++ [.answered op outcome]) = accepted h := by
  cases op with
  | publish channel delivery => exact absurd rfl (other channel delivery)
  | _ => simp [accepted]

theorem accepted_snoc_logged (h : CallHistory ε) (line : String) :
    accepted (h ++ [.logged line]) = accepted h := by
  simp [accepted]

theorem accepted_snoc_publish_ok (h : CallHistory ε) (channel : Channel) (delivery : Delivery) :
    accepted (h ++ [.answered (.publish channel delivery) (.ok ())]) =
      accepted h ++ [delivery] := by
  simp [accepted]

theorem accepted_snoc_publish_error (h : CallHistory ε) (channel : Channel)
    (delivery : Delivery) (exn : PublishExn ε) :
    accepted (h ++ [.answered (.publish channel delivery) (.error exn)]) = accepted h := by
  simp [accepted]

/-- An operation that may end in any way and accepts no message changes nothing. -/
theorem neutral_contract {ds : List Delivery} {op : ChannelOp} {h : CallHistory ε}
    (start : accepted h = []) (other : ∀ channel delivery, op ≠ .publish channel delivery) :
    Contract Permitted (AllOrNothing ds) (fun h _ => accepted h = []) h (.perform op) := by
  apply Contract.perform (.inl start)
  intro outcome _
  have same := accepted_snoc_of_not_publish h outcome other
  rw [start] at same
  exact ⟨.inl same, same⟩

/-- A declared exchange has the name that was asked for. -/
theorem Channel.declareExchange_contract {ds : List Delivery} {channel : Channel}
    {options : ExchangeOptions} {h : CallHistory ε} (start : accepted h = []) :
    Contract Permitted (AllOrNothing ds)
      (fun h outcome => accepted h = [] ∧ ∀ exchange, outcome = .ok exchange →
        exchange.name = options.name) h (channel.declareExchange options) := by
  apply (neutral_contract start (by simp)).bind
  · intro h _ inv start
    refine .done inv ⟨start, ?_⟩
    rintro exchange ⟨⟩
    rfl
  · intro h exn _ start
    exact ⟨start, nofun⟩

/-- Publishing one message accepts it exactly when it ends normally. -/
theorem Exchange.publish_contract {exchange : Exchange} {message : Message} {routingKey : String}
    {h : CallHistory ε} (start : accepted h = []) :
    Contract Permitted (AllOrNothing [⟨exchange.name, routingKey, message⟩])
      (Exact [⟨exchange.name, routingKey, message⟩]) h (exchange.publish message routingKey) := by
  apply Contract.perform (.inl start)
  rintro (exn | reply) _
  · have same := accepted_snoc_publish_error h exchange.channel
      ⟨exchange.name, routingKey, message⟩ exn
    rw [start] at same
    exact ⟨.inl same, same⟩
  · have added := accepted_snoc_publish_ok h exchange.channel ⟨exchange.name, routingKey, message⟩
    rw [start] at added
    exact ⟨.inr added, added⟩

/-- Releasing the channel after the body leaves the history as it was. -/
theorem Channel.release_contract {ds : List Delivery} {channel : Channel} {h : CallHistory ε}
    {outcome : Except (PublishExn ε) Unit} (inv : AllOrNothing ds h) (post : Exact ds h outcome) :
    Contract Permitted (AllOrNothing ds) (fun h ended => ended = .ok () ∧ Exact ds h outcome) h
      channel.release := by
  have same := @accepted_snoc_of_not_publish _ h (.release channel) (.ok ()) (by simp)
  apply Contract.perform inv
  rintro ended rfl
  refine ⟨?_, rfl, ?_⟩
  · rwa [AllOrNothing, same]
  · rwa [Exact, same]

/-- A line is written only after the delivery, and writing it does not fail. -/
theorem write_contract {ds : List Delivery} {line : String} {h : CallHistory ε}
    (all : accepted h = ds) :
    Contract Permitted (AllOrNothing ds) (Exact ds) h (.write line) :=
  have same : accepted (h ++ [.logged line]) = ds := (accepted_snoc_logged h line).trans all
  .write (.inr all) (.inr same) same

theorem routingKey_eq_ok_iff {key : RoutingKey} :
    (event.routingKey : Except (PublishExn ε) RoutingKey) = .ok key ↔
      event.type.routingKey = some key := by
  unfold Event.routingKey
  split
  · rename_i own hown
    simp [hown]
  · rename_i hnone
    simp [hnone]

/-- An event without a routing key is never delivered. -/
theorem deliveries_eq_nil_of_error {exn : PublishExn ε} (lib : Pydantic Datetime)
    (publisher : EventPublisher) (h : event.routingKey = .error exn) :
    publisher.deliveries lib event = [] := by
  rcases publisher.deliveries_eq lib event with none | ⟨_, key, hkey, _⟩
  · exact none
  · rw [routingKey_eq_ok_iff.mpr hkey] at h
    cases h

/-- After everything is delivered a publisher reads the routing key again and
writes one line. Reading it fails only for an event that is never delivered. -/
theorem log_contract (publisher : EventPublisher) {h : CallHistory ε} {line : RoutingKey → String}
    (all : accepted h = publisher.deliveries lib event) :
    Contract Permitted (AllOrNothing (publisher.deliveries lib event))
      (Exact (publisher.deliveries lib event)) h (do
        let key ← .done event.routingKey
        Coroutine.write (line key)) := by
  apply Contract.bind (R := fun h outcome =>
    accepted h = publisher.deliveries lib event ∧ outcome = event.routingKey)
  · exact .done (.inr all) ⟨all, rfl⟩
  · rintro h key _ ⟨all, _⟩
    exact write_contract all
  · rintro h exn _ ⟨all, hkey⟩
    have none := deliveries_eq_nil_of_error lib publisher hkey.symm
    rwa [none] at all

/-- The body of `async with`: declare the exchange, and publish the message to it. -/
theorem body_contract {exchangeName : String} {channel : Channel} {h : CallHistory ε}
    (start : accepted h = []) :
    Contract Permitted
      (AllOrNothing ((EventPublisher.rabbit exchangeName).deliveries lib event))
      (Exact ((EventPublisher.rabbit exchangeName).deliveries lib event)) h (do
        let exchange ← channel.declareExchange ⟨exchangeName, .topic, true, false⟩
        let key ← .done event.routingKey
        exchange.publish (event.message lib) key.value) := by
  apply (Channel.declareExchange_contract start).bind
  · rintro h exchange _ ⟨start, named⟩
    obtain rfl : exchange.name = exchangeName := named exchange rfl
    apply Contract.bind (R := fun h outcome => accepted h = [] ∧ outcome = event.routingKey)
    · exact .done (.inl start) ⟨start, rfl⟩
    · rintro h key _ ⟨start, hkey⟩
      have one : (EventPublisher.rabbit exchange.name).deliveries lib event =
          [⟨exchange.name, key.value, event.message lib⟩] := by
        simp [EventPublisher.deliveries, routingKey_eq_ok_iff.mp hkey.symm]
      rw [one]
      exact Exchange.publish_contract start
    · rintro h exn _ ⟨start, _⟩
      exact start
  · rintro h exn _ ⟨start, _⟩
    exact start

/-- The contract of one call: at every point nothing or everything is
delivered, and the outcome says which. -/
theorem EventPublisher.publish_contract (lib : Pydantic Datetime) (event : Event Datetime)
    (publisher : EventPublisher) {h : CallHistory ε} (start : accepted h = []) :
    Contract Permitted (AllOrNothing (publisher.deliveries lib event))
      (Exact (publisher.deliveries lib event)) h (publisher.publish lib event) := by
  induction publisher generalizing h with
  | logging => exact log_contract .logging start
  | rabbit exchangeName =>
      apply Contract.asyncWith (neutral_contract start (by simp))
        (S := fun _ => Exact ((EventPublisher.rabbit exchangeName).deliveries lib event))
      · intro h exn _ post
        exact post
      · intro h channel _ start
        exact body_contract start
      · intro h channel outcome inv post
        exact Channel.release_contract inv post
  | echoing inner ih =>
      apply (ih start).bind
      · intro h _ _ all
        exact log_contract inner all
      · intro h exn _ none
        exact none

end Contract

end MestoryCore.Events
