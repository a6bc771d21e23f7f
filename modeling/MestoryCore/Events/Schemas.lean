import MestoryCore.Events.Keys
import MestoryCore.Events.Registry
import MestoryCore.Python.Json
import MestoryCore.Python.Uuid

/-!
# Event schemas

An event class is its routing key and its fields; an event is a class with a
value for each field. `modelDumpJson` and `modelValidateJson` go through the
fields as pydantic does: a missing field takes its default, an unknown one is
ignored. The JSON form of each field type and the JSON text are the library's,
so they are parameters, and so is the type that stands for `datetime`.
-/

namespace MestoryCore.Events

open Python

inductive FieldType where
  | uuid
  | datetime
  | str
  | optionalUuid

/-- The values of a field type. -/
@[reducible] def FieldType.Value (Datetime : Type) : FieldType → Type
  | .uuid => Uuid
  | .datetime => Datetime
  | .str => String
  | .optionalUuid => Option Uuid

/-- The defaults that event fields have: `uuid.uuid4`, `datetime.now(UTC)`, and `None`. -/
inductive Default : FieldType → Type where
  | uuid4 : Default .uuid
  | now : Default .datetime
  | none : Default .optionalUuid

structure Field where
  name : String
  type : FieldType
  default? : Option (Default type)

def Field.required (name : String) (type : FieldType) : Field := ⟨name, type, none⟩

/-- The fields that `Event` declares. -/
def eventFields : List Field :=
  [⟨"event_id", .uuid, some .uuid4⟩, ⟨"occurred_at", .datetime, some .now⟩]

/-- An event class: its name, its `routing_key` when it has one, and the fields
it has beyond those of `Event`. -/
structure EventType where
  name : String
  routingKey : Option RoutingKey
  declared : List Field
  distinct : ((eventFields ++ declared).map Field.name).Nodup

namespace EventType

def fields (type : EventType) : List Field := eventFields ++ type.declared

/-- The base class `Event`, which only annotates `routing_key`. -/
def event : EventType := ⟨"Event", none, [], by decide⟩

def userRegistered : EventType :=
  ⟨"UserRegistered", some .userRegistered,
    [.required "user_id" .uuid, .required "email" .str], by decide⟩

def verificationRequested : EventType :=
  ⟨"VerificationRequested", some .userVerificationRequested,
    [.required "user_id" .uuid, .required "email" .str, .required "token" .str], by decide⟩

def userVerified : EventType :=
  ⟨"UserVerified", some .userVerified,
    [.required "user_id" .uuid, .required "email" .str], by decide⟩

def passwordResetRequested : EventType :=
  ⟨"PasswordResetRequested", some .userPasswordResetRequested,
    [.required "user_id" .uuid, .required "email" .str, .required "token" .str], by decide⟩

def passwordReset : EventType :=
  ⟨"PasswordReset", some .userPasswordReset,
    [.required "user_id" .uuid, .required "email" .str], by decide⟩

def userDeleted : EventType :=
  ⟨"UserDeleted", some .userDeleted, [.required "user_id" .uuid], by decide⟩

def profileCreated : EventType :=
  ⟨"ProfileCreated", some .profileCreated,
    [.required "profile_id" .uuid, .required "user_id" .uuid, .required "handle" .str,
      .required "account_type" .str], by decide⟩

def profileUpdated : EventType :=
  ⟨"ProfileUpdated", some .profileUpdated,
    [.required "profile_id" .uuid, .required "user_id" .uuid, .required "display_name" .str,
      .required "account_type" .str, ⟨"avatar_media_id", .optionalUuid, some .none⟩], by decide⟩

def profileBusinessVerified : EventType :=
  ⟨"ProfileBusinessVerified", some .profileBusinessVerified,
    [.required "profile_id" .uuid, .required "user_id" .uuid], by decide⟩

def profileFollowed : EventType :=
  ⟨"ProfileFollowed", some .profileFollowed,
    [.required "follower_id" .uuid, .required "followee_id" .uuid], by decide⟩

def profileUnfollowed : EventType :=
  ⟨"ProfileUnfollowed", some .profileUnfollowed,
    [.required "follower_id" .uuid, .required "followee_id" .uuid], by decide⟩

def profileBlocked : EventType :=
  ⟨"ProfileBlocked", some .profileBlocked,
    [.required "blocker_id" .uuid, .required "blocked_id" .uuid], by decide⟩

def profileUnblocked : EventType :=
  ⟨"ProfileUnblocked", some .profileUnblocked,
    [.required "blocker_id" .uuid, .required "blocked_id" .uuid], by decide⟩

def profileDeleted : EventType :=
  ⟨"ProfileDeleted", some .profileDeleted,
    [.required "profile_id" .uuid, .required "user_id" .uuid], by decide⟩

/-- The subclasses of `Event`, in their order of definition. -/
def subclasses : List EventType :=
  [userRegistered, verificationRequested, userVerified, passwordResetRequested, passwordReset,
    userDeleted, profileCreated, profileUpdated, profileBusinessVerified, profileFollowed,
    profileUnfollowed, profileBlocked, profileUnblocked, profileDeleted]

/-- None of them has subclasses of its own. -/
def tree : ClassTree EventType := .node event (subclasses.map fun subclass => .node subclass [])

end EventType

/-- `_all_event_types(Event)`. -/
def eventTypes : List EventType := allEventTypes EventType.tree

theorem eventTypes_eq : eventTypes = EventType.subclasses := rfl

/-- `EVENTS_BY_ROUTING_KEY`. -/
def eventsByRoutingKey : Finmap fun _ : RoutingKey => EventType :=
  (byRoutingKey EventType.routingKey eventTypes).getD ∅

theorem routingKeys_nodup : (eventTypes.map EventType.routingKey).Nodup := by
  decide

theorem isSome_routingKey {type : EventType} (h : type ∈ eventTypes) :
    type.routingKey.isSome := by
  have declared : ∀ key ∈ eventTypes.map EventType.routingKey, key.isSome := by decide
  exact declared _ (List.mem_map_of_mem h)

theorem byRoutingKey_eventTypes :
    byRoutingKey EventType.routingKey eventTypes = some eventsByRoutingKey := by
  obtain ⟨registry, h⟩ := exists_byRoutingKey fun cls (hcls : cls ∈ eventTypes) =>
    isSome_routingKey hcls
  rw [eventsByRoutingKey, h, Option.getD_some]

/-- The registry finds every declared class under its own key, and no other class. -/
theorem lookup_eventsByRoutingKey {key : RoutingKey} {type : EventType} :
    eventsByRoutingKey.lookup key = some type ↔ type ∈ eventTypes ∧ type.routingKey = some key :=
  lookup_byRoutingKey byRoutingKey_eventTypes routingKeys_nodup

/-! ## Events and their JSON -/

/-- The values of a list of fields. -/
def Values (Datetime : Type) : List Field → Type
  | [] => Unit
  | field :: fields => field.type.Value Datetime × Values Datetime fields

/-- An event: its class and the values of its fields. -/
structure Event (Datetime : Type) where
  type : EventType
  values : Values Datetime type.fields

variable {Datetime : Type}

/-- `event.event_id`. -/
def Event.eventId (event : Event Datetime) : Uuid :=
  let values : Uuid × Datetime × Values Datetime event.type.declared := event.values
  values.1

/-- What pydantic does with one value in JSON mode, and with the JSON text of an
object. `decode` and `loads` return `none` where validation fails. -/
structure Pydantic (Datetime : Type) where
  encode : (type : FieldType) → type.Value Datetime → Json
  decode : (type : FieldType) → Json → Option (type.Value Datetime)
  dumps : Dict → String
  loads : String → Option Json

/-- Each field type decodes what it encodes, and the text of an object with
distinct names and encoded values is read back as that object. -/
structure Pydantic.RoundTrips (lib : Pydantic Datetime) : Prop where
  decode_encode : ∀ (type : FieldType) (value : type.Value Datetime),
    lib.decode type (lib.encode type value) = some value
  loads_dumps : ∀ items : Dict, (items.map Prod.fst).Nodup →
    (∀ item ∈ items, ∃ (type : FieldType) (value : type.Value Datetime),
      item.2 = lib.encode type value) → lib.loads (lib.dumps items) = some (.dict items)

/-- What the default factories return when they are called. -/
structure Factories (Datetime : Type) where
  uuid4 : Uuid
  now : Datetime

def Default.value (new : Factories Datetime) : {type : FieldType} → Default type →
    type.Value Datetime
  | _, .uuid4 => new.uuid4
  | _, .now => new.now
  | _, .none => Option.none

/-- The items of the JSON object of some fields. -/
def Values.items (lib : Pydantic Datetime) : (fields : List Field) → Values Datetime fields → Dict
  | [], _ => []
  | field :: fields, (value, values) =>
      (field.name, lib.encode field.type value) :: Values.items lib fields values

/-- `event.model_dump_json()`. -/
def Event.modelDumpJson (lib : Pydantic Datetime) (event : Event Datetime) : String :=
  lib.dumps (event.values.items lib event.type.fields)

def validateField (lib : Pydantic Datetime) (new : Factories Datetime) (items : Dict)
    (field : Field) : Option (field.type.Value Datetime) :=
  match items.get? field.name with
  | some json => lib.decode field.type json
  | none => field.default?.map (Default.value new)

def validateFields (lib : Pydantic Datetime) (new : Factories Datetime) (items : Dict) :
    (fields : List Field) → Option (Values Datetime fields)
  | [] => some ()
  | field :: fields => do
      let value ← validateField lib new items field
      let values ← validateFields lib new items fields
      return (value, values)

/-- `type.model_validate_json(body)`; `none` is the `ValidationError`. -/
def EventType.modelValidateJson (lib : Pydantic Datetime) (new : Factories Datetime)
    (type : EventType) (body : ByteArray) : Option (Event Datetime) := do
  let text ← String.fromUTF8? body
  match ← lib.loads text with
  | .dict items => (validateFields lib new items type.fields).map fun values => ⟨type, values⟩
  | _ => none

/-- How the consumer of a message fails. -/
inductive ConsumerError where
  | valueError (routingKey : String)
  | keyError (routingKey : RoutingKey)
  | validationError
  deriving DecidableEq

/-- What a consumer does with a message: the class by the routing key, the event
by its class. -/
def consume (lib : Pydantic Datetime) (new : Factories Datetime) (routingKey : String)
    (body : ByteArray) : Except ConsumerError (Event Datetime) :=
  match RoutingKey.ofValue? routingKey with
  | none => .error (.valueError routingKey)
  | some key =>
      match eventsByRoutingKey.lookup key with
      | none => .error (.keyError key)
      | some type =>
          match type.modelValidateJson lib new body with
          | none => .error .validationError
          | some event => .ok event

/-! ## An event survives the wire -/

section RoundTrip

variable {lib : Pydantic Datetime} {new : Factories Datetime}

theorem map_fst_items (fields : List Field) (values : Values Datetime fields) :
    (values.items lib fields).map Prod.fst = fields.map Field.name := by
  induction fields with
  | nil => rfl
  | cons field fields ih =>
      obtain ⟨value, values⟩ := values
      rw [Values.items, List.map_cons, List.map_cons, ih]

theorem exists_encode_of_mem_items {fields : List Field} {values : Values Datetime fields}
    {item : String × Json} (h : item ∈ values.items lib fields) :
    ∃ (type : FieldType) (value : type.Value Datetime), item.2 = lib.encode type value := by
  induction fields with
  | nil => cases h
  | cons field fields ih =>
      obtain ⟨value, values⟩ := values
      rcases List.mem_cons.mp h with rfl | h
      · exact ⟨field.type, value, rfl⟩
      · exact ih h

/-- Fields are read back from any object in which each of their items can be looked up. -/
theorem validateFields_of_get? (new : Factories Datetime) (faithful : lib.RoundTrips)
    {fields : List Field}
    {values : Values Datetime fields} {items : Dict}
    (h : ∀ item ∈ values.items lib fields, items.get? item.1 = some item.2) :
    validateFields lib new items fields = some values := by
  induction fields with
  | nil => rfl
  | cons field fields ih =>
      obtain ⟨value, values⟩ := values
      have head := h (field.name, lib.encode field.type value) (List.mem_cons_self ..)
      have first : validateField lib new items field = some value := by
        simp only [validateField, head, faithful.decode_encode]
      have rest := ih fun item hitem => h item (List.mem_cons_of_mem _ hitem)
      rw [validateFields, first, Option.bind_eq_bind, Option.bind_some, rest]
      rfl

theorem fromUTF8?_toByteArray (text : String) :
    String.fromUTF8? text.toByteArray = some text :=
  dif_pos text.isValidUTF8

/-- What `model_dump_json` writes is validated to the same event by its class. -/
theorem modelValidateJson_modelDumpJson (faithful : lib.RoundTrips) (event : Event Datetime) :
    event.type.modelValidateJson lib new (event.modelDumpJson lib).toUTF8 = some event := by
  have distinct : ((event.values.items lib event.type.fields).map Prod.fst).Nodup := by
    rw [map_fst_items]
    exact event.type.distinct
  have text := faithful.loads_dumps _ distinct fun _ => exists_encode_of_mem_items
  have values := validateFields_of_get? new faithful
    fun item (hitem : item ∈ event.values.items lib event.type.fields) =>
      Dict.get?_eq_some_of_mem distinct hitem
  simp [EventType.modelValidateJson, Event.modelDumpJson, fromUTF8?_toByteArray, text, values]

/-- A consumer of what a declared event is published as gets that event. -/
theorem consume_modelDumpJson (faithful : lib.RoundTrips) {event : Event Datetime}
    {key : RoutingKey} (declared : event.type ∈ eventTypes)
    (routed : event.type.routingKey = some key) :
    consume lib new key.value (event.modelDumpJson lib).toUTF8 = .ok event := by
  have found := lookup_eventsByRoutingKey.mpr ⟨declared, routed⟩
  simp only [consume, RoutingKey.ofValue?_value, found,
    modelValidateJson_modelDumpJson faithful event]

end RoundTrip

end MestoryCore.Events
