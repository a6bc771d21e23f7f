import MestoryCore.Events.Delivery

/-!
# Messages of other versions and redelivered messages

A service may publish with another version of an event class than the one a
consumer has. The two agree on the routing key and on the types of the fields
that they share. The consumer then takes the shared fields from the message,
ignores the others of the publisher, and needs a default for each of its own.

A message may also be delivered more than once. The default factories of `Event`
are called anew for each delivery, so the event is the same each time exactly
when the message carries the fields that have them.
-/

namespace MestoryCore.Events

open Python

variable {Datetime : Type}

/-- The fields with their values, by name. -/
def Values.entries : (fields : List Field) → Values Datetime fields →
    List (String × Σ type : FieldType, type.Value Datetime)
  | [], _ => []
  | field :: fields, (value, values) => (field.name, ⟨field.type, value⟩) :: entries fields values

def Event.entries (event : Event Datetime) :
    List (String × Σ type : FieldType, type.Value Datetime) :=
  event.values.entries event.type.fields

def EventType.names (type : EventType) : List String := type.fields.map Field.name

deriving instance DecidableEq for FieldType

section Fields

variable {lib : Pydantic Datetime} {new : Factories Datetime}

theorem Values.items_eq_map (fields : List Field) (values : Values Datetime fields) :
    values.items lib fields =
      (values.entries fields).map fun entry => (entry.1, lib.encode entry.2.1 entry.2.2) := by
  induction fields with
  | nil => rfl
  | cons field fields ih =>
      obtain ⟨value, values⟩ := values
      rw [items, entries, List.map_cons, ih]

theorem Values.map_fst_entries (fields : List Field) (values : Values Datetime fields) :
    (values.entries fields).map Prod.fst = fields.map Field.name := by
  induction fields with
  | nil => rfl
  | cons field fields ih =>
      obtain ⟨value, values⟩ := values
      rw [entries, List.map_cons, List.map_cons, ih]

/-- Every entry is a field with its value. -/
theorem Values.exists_mem_of_mem_entries {fields : List Field} {values : Values Datetime fields}
    {entry : String × Σ type : FieldType, type.Value Datetime} (h : entry ∈ values.entries fields) :
    ∃ field ∈ fields, field.name = entry.1 ∧ field.type = entry.2.1 := by
  induction fields with
  | nil => cases h
  | cons field fields ih =>
      obtain ⟨value, values⟩ := values
      rcases List.mem_cons.mp h with rfl | h
      · exact ⟨field, List.mem_cons_self, rfl, rfl⟩
      · obtain ⟨found, hfound, same⟩ := ih h
        exact ⟨found, List.mem_cons_of_mem _ hfound, same⟩

theorem validateFields_cons_eq_some_iff {items : Dict} {field : Field} {fields : List Field}
    {value : field.type.Value Datetime} {values : Values Datetime fields} :
    validateFields lib new items (field :: fields) = some (value, values) ↔
      validateField lib new items field = some value ∧
        validateFields lib new items fields = some values := by
  constructor
  · intro h
    obtain ⟨own, hown, h⟩ := Option.bind_eq_some_iff.mp h
    obtain ⟨rest, hrest, h⟩ := Option.bind_eq_some_iff.mp h
    obtain ⟨rfl, rfl⟩ := Prod.mk.inj (Option.some.inj h)
    exact ⟨hown, hrest⟩
  · rintro ⟨hvalue, hvalues⟩
    rw [validateFields, hvalue, Option.bind_eq_bind, Option.bind_some, hvalues]
    rfl

/-- Fields are validated when each of them is. -/
theorem exists_validateFields_iff {items : Dict} {fields : List Field} :
    (∃ values, validateFields lib new items fields = some values) ↔
      ∀ field ∈ fields, ∃ value, validateField lib new items field = some value := by
  induction fields with
  | nil => exact ⟨fun _ => nofun, fun _ => ⟨(), rfl⟩⟩
  | cons field fields ih =>
      rw [List.forall_mem_cons, ← ih]
      constructor
      · rintro ⟨⟨value, values⟩, h⟩
        obtain ⟨hvalue, hvalues⟩ := validateFields_cons_eq_some_iff.mp h
        exact ⟨⟨value, hvalue⟩, ⟨values, hvalues⟩⟩
      · rintro ⟨⟨value, hvalue⟩, ⟨values, hvalues⟩⟩
        exact ⟨(value, values), validateFields_cons_eq_some_iff.mpr ⟨hvalue, hvalues⟩⟩

/-- A validated field is found with its value. -/
theorem mem_entries_of_validateFields {items : Dict} {fields : List Field}
    {values : Values Datetime fields} (h : validateFields lib new items fields = some values)
    {field : Field} (hfield : field ∈ fields) :
    ∃ value, validateField lib new items field = some value ∧
      (field.name, ⟨field.type, value⟩) ∈ values.entries fields := by
  induction fields with
  | nil => cases hfield
  | cons own fields ih =>
      obtain ⟨value, rest⟩ := values
      obtain ⟨hvalue, hrest⟩ := validateFields_cons_eq_some_iff.mp h
      rcases List.mem_cons.mp hfield with rfl | hfield
      · exact ⟨value, hvalue, List.mem_cons_self⟩
      · obtain ⟨found, hfound, hmem⟩ := ih hrest hfield
        exact ⟨found, hfound, List.mem_cons_of_mem _ hmem⟩

end Fields

/-! ## Another version of a class -/

section Versions

variable {lib : Pydantic Datetime} (new : Factories Datetime)

theorem Event.mem_names_of_mem_entries {event : Event Datetime}
    {entry : String × Σ type : FieldType, type.Value Datetime} (h : entry ∈ event.entries) :
    entry.1 ∈ event.type.names := by
  rw [EventType.names, ← Values.map_fst_entries _ event.values]
  exact List.mem_map_of_mem h

/-- The value of a field in the message of an event that shares its type with
the field of that name, or else its default. -/
theorem validateField_published (faithful : lib.RoundTrips) (published : Event Datetime)
    {field : Field}
    (shared : ∀ other ∈ published.type.fields, field.name = other.name →
      field.type = other.type) :
    (∃ value, (field.name, ⟨field.type, value⟩) ∈ published.entries ∧
      validateField lib new (published.values.items lib published.type.fields) field =
        some value) ∨
    (field.name ∉ published.type.names ∧
      validateField lib new (published.values.items lib published.type.fields) field =
        field.default?.map (Default.value new)) := by
  have names : (published.values.items lib published.type.fields).map Prod.fst =
      published.type.names := map_fst_items _ _
  by_cases known : field.name ∈ published.type.names
  · left
    rw [EventType.names, ← Values.map_fst_entries _ published.values] at known
    obtain ⟨⟨name, type, value⟩, hentry, hname⟩ := List.mem_map.mp known
    obtain ⟨other, hother, other_name, other_type⟩ := Values.exists_mem_of_mem_entries hentry
    have same := (shared other hother (hname.symm.trans other_name.symm)).trans other_type
    obtain ⟨own_name, own_type, own_default⟩ := field
    obtain rfl : name = own_name := hname
    obtain rfl : own_type = type := same
    refine ⟨value, hentry, ?_⟩
    have item : (name, lib.encode own_type value) ∈
        published.values.items lib published.type.fields := by
      rw [Values.items_eq_map]
      exact List.mem_map_of_mem hentry
    have distinct : ((published.values.items lib published.type.fields).map Prod.fst).Nodup := by
      rw [names]
      exact published.type.distinct
    have found := Dict.get?_eq_some_of_mem distinct item
    simp only [validateField, found, faithful.decode_encode]
  · right
    refine ⟨known, ?_⟩
    have missing := Dict.get?_eq_none_iff.mpr (names ▸ known)
    simp only [validateField, missing]

/-- A class validates the message of any event as the object that the event was written as. -/
theorem modelValidateJson_published (faithful : lib.RoundTrips) (ours : EventType)
    (published : Event Datetime) :
    ours.modelValidateJson lib new (published.modelDumpJson lib).toUTF8 =
      (validateFields lib new (published.values.items lib published.type.fields)
        ours.fields).map fun values => ⟨ours, values⟩ := by
  have distinct : ((published.values.items lib published.type.fields).map Prod.fst).Nodup := by
    rw [map_fst_items]
    exact published.type.distinct
  have text := faithful.loads_dumps _ distinct fun _ => exists_encode_of_mem_items
  simp [EventType.modelValidateJson, Event.modelDumpJson, fromUTF8?_toByteArray, text]

/-- A consumer validates by the declared class of the routing key. -/
theorem consume_of_declared {ours : EventType} {key : RoutingKey} (declared : ours ∈ eventTypes)
    (routed : ours.routingKey = some key) (body : ByteArray) :
    consume lib new key.value body =
      (ours.modelValidateJson lib new body).elim (.error .validationError) .ok := by
  have found := lookup_eventsByRoutingKey.mpr ⟨declared, routed⟩
  simp only [consume, RoutingKey.ofValue?_value, found]
  cases ours.modelValidateJson lib new body <;> rfl

/-- What a consumer with the class `ours` makes of a message. It is accepted
when each field of `ours` is a field of the publisher or has a default; the
event then has the published value of each shared field, and the default of each
other one. -/
structure Compatible (lib : Pydantic Datetime) (new : Factories Datetime) (ours : EventType)
    (published : Event Datetime) (received : Except ConsumerError (Event Datetime)) : Prop where
  accepted : (∃ event, received = .ok event) ↔
    ∀ field ∈ ours.fields, field.name ∈ published.type.names ∨ field.default?.isSome
  rejected : (¬∃ event, received = .ok event) → received = .error .validationError
  type_eq : ∀ event, received = .ok event → event.type = ours
  carried : ∀ event, received = .ok event → ∀ field ∈ ours.fields,
    field.name ∈ published.type.names → ∃ value,
      (field.name, ⟨field.type, value⟩) ∈ published.entries ∧
      (field.name, ⟨field.type, value⟩) ∈ event.entries
  defaulted : ∀ event, received = .ok event → ∀ field ∈ ours.fields,
    field.name ∉ published.type.names → ∃ default, field.default? = some default ∧
      (field.name, ⟨field.type, default.value new⟩) ∈ event.entries

/-- The fields of `ours` are validated when each is shared or has a default. -/
theorem exists_validateFields_published_iff (faithful : lib.RoundTrips) {ours : EventType}
    {published : Event Datetime}
    (shared : ∀ field ∈ ours.fields, ∀ other ∈ published.type.fields,
      field.name = other.name → field.type = other.type) :
    (∃ values, validateFields lib new (published.values.items lib published.type.fields)
        ours.fields = some values) ↔
      ∀ field ∈ ours.fields, field.name ∈ published.type.names ∨ field.default?.isSome := by
  rw [exists_validateFields_iff]
  apply forall₂_congr
  intro field hfield
  rcases validateField_published new faithful published (shared field hfield) with
    ⟨value, hentry, validated⟩ | ⟨unknown, validated⟩
  · have known : field.name ∈ published.type.names := Event.mem_names_of_mem_entries hentry
    simp [validated, known]
  · simp [validated, unknown, Option.isSome_iff_exists]

/-- A consumer understands the messages of every version of a class that shares
its fields' types: all of them when each added field has a default. -/
theorem compatible_of_shared (faithful : lib.RoundTrips) {ours : EventType} {key : RoutingKey}
    {published : Event Datetime} (declared : ours ∈ eventTypes)
    (routed : ours.routingKey = some key)
    (shared : ∀ field ∈ ours.fields, ∀ other ∈ published.type.fields,
      field.name = other.name → field.type = other.type) :
    Compatible lib new ours published
      (consume lib new key.value (published.modelDumpJson lib).toUTF8) := by
  have accepted := exists_validateFields_published_iff new faithful shared
  rw [consume_of_declared new declared routed, modelValidateJson_published new faithful]
  cases hvalues : validateFields lib new (published.values.items lib published.type.fields)
      ours.fields with
  | none =>
      rw [hvalues] at accepted
      constructor
      · simpa using accepted
      · intro _
        rfl
      all_goals nofun
  | some values =>
      rw [hvalues] at accepted
      constructor
      · simpa using accepted
      · intro refused
        exact absurd ⟨_, rfl⟩ refused
      · rintro _ ⟨⟩
        rfl
      · rintro _ ⟨⟩ field hfield known
        obtain ⟨value, validated, hmem⟩ := mem_entries_of_validateFields hvalues hfield
        rcases validateField_published new faithful published (shared field hfield) with
          ⟨sent, hentry, same⟩ | ⟨unknown, -⟩
        · obtain rfl : value = sent := Option.some.inj (validated.symm.trans same)
          exact ⟨value, hentry, hmem⟩
        · exact absurd known unknown
      · rintro _ ⟨⟩ field hfield unknown
        obtain ⟨value, validated, hmem⟩ := mem_entries_of_validateFields hvalues hfield
        rcases validateField_published new faithful published (shared field hfield) with
          ⟨sent, hentry, -⟩ | ⟨-, same⟩
        · exact absurd (Event.mem_names_of_mem_entries hentry) unknown
        · obtain ⟨default, hdefault, rfl⟩ := Option.map_eq_some_iff.mp (same.symm.trans validated)
          exact ⟨default, hdefault, hmem⟩

end Versions

/-- `ProfileUpdated` as it was before it had an avatar. -/
def EventType.profileUpdatedBefore : EventType :=
  ⟨"ProfileUpdated", some .profileUpdated,
    [.required "profile_id" .uuid, .required "user_id" .uuid, .required "display_name" .str,
      .required "account_type" .str], by decide⟩

def Event.sampleBefore : Event Unit where
  type := .profileUpdatedBefore
  values := (⟨3⟩, (), ⟨4⟩, ⟨2⟩, "Name", "creator", ())

/-- The update without an avatar is accepted, with no avatar. -/
theorem compatible_of_shared_before : ∃ event,
    consume .sample ⟨⟨5⟩, ()⟩ RoutingKey.profileUpdated.value
      (Event.sampleBefore.modelDumpJson .sample).toUTF8 = .ok event ∧
    Compatible .sample ⟨⟨5⟩, ()⟩ .profileUpdated .sampleBefore
      (consume .sample ⟨⟨5⟩, ()⟩ RoutingKey.profileUpdated.value
        (Event.sampleBefore.modelDumpJson .sample).toUTF8) := by
  have declared : EventType.profileUpdated ∈ eventTypes := by
    simp [eventTypes_eq, EventType.subclasses]
  have shared : ∀ field ∈ EventType.profileUpdated.fields,
      ∀ other ∈ Event.sampleBefore.type.fields,
      field.name = other.name → field.type = other.type := by
    decide
  have compatible := compatible_of_shared ⟨⟨5⟩, ()⟩ Pydantic.sample_roundTrips declared rfl shared
  obtain ⟨event, accepted⟩ := compatible.accepted.mpr (by decide)
  exact ⟨event, accepted, compatible⟩

/-! ## One message delivered more than once -/

/-- The object in a body. -/
def bodyItems (lib : Pydantic Datetime) (body : ByteArray) : Option Dict := do
  let text ← String.fromUTF8? body
  match ← lib.loads text with
  | .dict items => some items
  | _ => none

/-- The body is an object with a value for `name`. -/
def Carries (lib : Pydantic Datetime) (body : ByteArray) (name : String) : Prop :=
  ∃ items, bodyItems lib body = some items ∧ (items.get? name).isSome

section Redelivery

variable {lib : Pydantic Datetime} {new again : Factories Datetime} {items : Dict}
variable {type : EventType} {body : ByteArray} {event : Event Datetime}

/-- A field with a default is validated at both deliveries or at none, and to one
value when it is carried or its factory returns one value. -/
theorem validateField_again (again : Factories Datetime) {field : Field}
    {default : Default field.type} {value : field.type.Value Datetime}
    (stamped : field.default? = some default)
    (h : validateField lib new items field = some value) :
    ∃ repeated, validateField lib again items field = some repeated ∧
      (repeated = value ↔
        (items.get? field.name).isSome ∨ default.value again = default.value new) := by
  unfold validateField at h ⊢
  cases hitem : items.get? field.name with
  | some json =>
      rw [hitem] at h
      exact ⟨value, h, by simp⟩
  | none =>
      rw [hitem, stamped] at h
      obtain rfl := Option.some.inj h
      refine ⟨default.value again, ?_, by simp⟩
      rw [stamped]
      rfl

/-- No class declares a field whose default is made anew. -/
theorem validateFields_again (again : Factories Datetime) {fields : List Field}
    (constant : ∀ field ∈ fields, field.default?.isNone ∨ field.type = .optionalUuid) :
    validateFields lib again items fields = validateFields lib new items fields := by
  induction fields with
  | nil => rfl
  | cons field fields ih =>
      obtain ⟨own, rest⟩ := List.forall_mem_cons.mp constant
      have same : validateField lib again items field = validateField lib new items field := by
        obtain ⟨name, type, default?⟩ := field
        unfold validateField
        cases default? with
        | none => rfl
        | some default =>
            obtain rfl : type = .optionalUuid := by simpa using own
            cases default
            rfl
      rw [validateFields, validateFields, same, ih rest]

theorem constant_of_mem_eventTypes (h : type ∈ eventTypes) :
    ∀ field ∈ type.declared, field.default?.isNone ∨ field.type = .optionalUuid := by
  revert type
  decide

/-- A body is validated field by field: the two of `Event`, and those of the class. -/
theorem modelValidateJson_eq_some_iff :
    type.modelValidateJson lib new body = some event ↔
      ∃ items id at_time rest, bodyItems lib body = some items ∧
        validateField lib new items ⟨"event_id", .uuid, some .uuid4⟩ = some id ∧
        validateField lib new items ⟨"occurred_at", .datetime, some .now⟩ = some at_time ∧
        validateFields lib new items type.declared = some rest ∧
        event = ⟨type, (id, at_time, rest)⟩ := by
  have object : type.modelValidateJson lib new body =
      (bodyItems lib body).bind fun items =>
        (validateFields lib new items type.fields).map fun values => ⟨type, values⟩ := by
    unfold EventType.modelValidateJson bodyItems
    cases String.fromUTF8? body with
    | none => rfl
    | some text =>
        cases hloads : lib.loads text with
        | none => simp [hloads]
        | some json => cases json <;> simp [hloads]
  rw [object]
  constructor
  · intro h
    obtain ⟨items, hbody, h⟩ := Option.bind_eq_some_iff.mp h
    obtain ⟨⟨id, at_time, rest⟩, hvalues, rfl⟩ := Option.map_eq_some_iff.mp h
    obtain ⟨hid, hlater⟩ := validateFields_cons_eq_some_iff.mp hvalues
    obtain ⟨htime, hrest⟩ := validateFields_cons_eq_some_iff.mp hlater
    exact ⟨items, id, at_time, rest, hbody, hid, htime, hrest, rfl⟩
  · rintro ⟨items, id, at_time, rest, hbody, hid, htime, hrest, rfl⟩
    have later := validateFields_cons_eq_some_iff.mpr ⟨htime, hrest⟩
    have values : validateFields lib new items type.fields = some (id, at_time, rest) :=
      validateFields_cons_eq_some_iff.mpr ⟨hid, later⟩
    rw [hbody, Option.bind_some, values]
    rfl

/-- What a second delivery makes of a message that the first one accepted. -/
theorem modelValidateJson_again (again : Factories Datetime) (declared : type ∈ eventTypes)
    (h : type.modelValidateJson lib new body = some event) :
    ∃ repeated, type.modelValidateJson lib again body = some repeated ∧
      (repeated.eventId = event.eventId ↔
        Carries lib body "event_id" ∨ again.uuid4 = new.uuid4) ∧
      (repeated = event ↔ (Carries lib body "event_id" ∨ again.uuid4 = new.uuid4) ∧
        (Carries lib body "occurred_at" ∨ again.now = new.now)) := by
  obtain ⟨items, id, at_time, rest, hbody, hid, htime, hrest, rfl⟩ :=
    modelValidateJson_eq_some_iff.mp h
  obtain ⟨id', hid', same_id⟩ := validateField_again again rfl hid
  obtain ⟨time', htime', same_time⟩ := validateField_again again rfl htime
  have hrest' := (validateFields_again again (constant_of_mem_eventTypes declared)).trans hrest
  have carries (name : String) : Carries lib body name ↔ (items.get? name).isSome := by
    simp [Carries, hbody]
  refine ⟨⟨type, (id', time', rest)⟩, ?_, ?_, ?_⟩
  · exact modelValidateJson_eq_some_iff.mpr
      ⟨items, id', time', rest, hbody, hid', htime', hrest', rfl⟩
  · rw [carries]
    exact same_id
  · rw [carries, carries]
    constructor
    · intro equal
      cases equal
      exact ⟨same_id.mp rfl, same_time.mp rfl⟩
    · rintro ⟨one_id, one_time⟩
      obtain rfl := same_id.mpr one_id
      obtain rfl := same_time.mpr one_time
      rfl

/-- Two deliveries of one message, with what the factories return at each. Both
are rejected for one reason, or both are accepted. A consumer knows the second
by its `event_id` exactly when the message carries it, and sees the same event
exactly when the message carries `occurred_at` too; or else the factories must
return what they returned before. -/
structure Redelivered (lib : Pydantic Datetime) (new again : Factories Datetime)
    (body : ByteArray) (first second : Except ConsumerError (Event Datetime)) : Prop where
  rejected : ∀ error, first = .error error ↔ second = .error error
  event_id : ∀ {event repeated}, first = .ok event → second = .ok repeated →
    (repeated.eventId = event.eventId ↔
      Carries lib body "event_id" ∨ again.uuid4 = new.uuid4)
  same : ∀ {event repeated}, first = .ok event → second = .ok repeated →
    (repeated = event ↔ (Carries lib body "event_id" ∨ again.uuid4 = new.uuid4) ∧
      (Carries lib body "occurred_at" ∨ again.now = new.now))

/-- Every message, of a publisher of this library or not, is redelivered so. -/
theorem redelivered_of_consume (lib : Pydantic Datetime) (new again : Factories Datetime)
    (routingKey : String) (body : ByteArray) :
    Redelivered lib new again body (consume lib new routingKey body)
      (consume lib again routingKey body) := by
  unfold consume
  cases RoutingKey.ofValue? routingKey with
  | none => exact ⟨fun _ => .rfl, nofun, nofun⟩
  | some key =>
      cases hlookup : eventsByRoutingKey.lookup key with
      | none =>
          simp only [hlookup]
          exact ⟨fun _ => .rfl, nofun, nofun⟩
      | some type =>
          simp only [hlookup]
          have declared := (lookup_eventsByRoutingKey.mp hlookup).1
          cases hfirst : type.modelValidateJson lib new body with
          | none =>
              cases hsecond : type.modelValidateJson lib again body with
              | none => exact ⟨fun _ => .rfl, nofun, nofun⟩
              | some repeated =>
                  obtain ⟨event, hevent, -⟩ := modelValidateJson_again new declared hsecond
                  rw [hfirst] at hevent
                  cases hevent
          | some event =>
              obtain ⟨repeated, hsecond, event_id, same⟩ :=
                modelValidateJson_again again declared hfirst
              rw [hsecond]
              refine ⟨fun _ => ⟨nofun, nofun⟩, ?_, ?_⟩
              · rintro _ _ ⟨⟩ ⟨⟩
                exact event_id
              · rintro _ _ ⟨⟩ ⟨⟩
                exact same

end Redelivery

end MestoryCore.Events
