import MestoryCore.Auth.Verifier

/-!
# What a load reads

`JwksClient.fetch` is `_fetch` with its assignments, on any client. The dictionary
comprehension runs to its end exactly when no entry stops it, and `stopExn` is the
exception of the first one that does. From this one fact about the walk follow
the documents that a load accepts, the key map that it installs, and when a load
that succeeds brings a key that a token can ask for.
-/

namespace MestoryCore.Auth

open Python

variable {τ : Type} {lib : Library} {url : String}

/-- `_fetch`. A client changes only when a key map was read. -/
def JwksClient.fetch (lib : Library) (c : JwksClient τ) (now : Time)
    (got : Except LibraryExn Response) : Except Exn Unit × JwksClient τ :=
  match Auth.fetch lib c.url got with
  | .ok (_, keys) => (.ok (), { c with keys, fetchedAt := some now })
  | .error exn => (.error exn, c)

/-- The end of a load is `_fetch`, then the remembered error and the lock. -/
theorem JwksClient.install_eq {c : JwksClient τ} {now : Time} {got : Except LibraryExn Response}
    {document : Json} {keys : Keys} (h : Auth.fetch lib c.url got = .ok (document, keys)) :
    c.install now keys =
      { (c.fetch lib now got).2 with lastError := none, lock := c.lock.release } := by
  simp only [JwksClient.fetch, h, JwksClient.install]

theorem JwksClient.recordFailure_eq {c : JwksClient τ} {now : Time}
    {got : Except LibraryExn Response} {exn : Exn} {error : Raised}
    (h : Auth.fetch lib c.url got = .error exn) :
    c.recordFailure error =
      { (c.fetch lib now got).2 with lastError := some error, lock := c.lock.release } := by
  simp only [JwksClient.fetch, h, JwksClient.recordFailure]

/-- A document served with status 200. -/
def Response.serving (document : Json) : Response where
  raiseForStatus := .ok ()
  json := .ok document

theorem fetch_serving (document : Json) :
    Auth.fetch lib url (.ok (.serving document)) =
      (parseKeys lib url document).map fun keys => (document, keys) := by
  cases h : parseKeys lib url document <;>
    simp [Auth.fetch, receiveDocument, Response.serving, h, bind, Except.bind, pure, Except.pure,
      Except.map, Except.mapError]

/-! ## The walk -/

/-- `"kid" in jwk`. -/
def hasKid (jwk : Dict) : Bool := (Dict.get? jwk "kid").isSome

/-- The comprehension raises at this entry. -/
def stops (lib : Library) (jwk : Dict) : Bool := !converts lib jwk || unhashableKid jwk

/-- What it raises there. -/
def stopExn (lib : Library) (jwk : Dict) : Exn :=
  match toPem lib jwk with
  | .error exc => exc
  | .ok _ =>
      let kid := (Dict.get? jwk "kid").getD .null
      .typeError s!"unhashable type: '{kid.typeName}'"

theorem insertKey_of_not_hasKid {keys : Keys} {jwk : Dict} (h : hasKid jwk = false) :
    insertKey lib keys jwk = .ok keys := by
  have hkid : Dict.get? jwk "kid" = none := by simpa [hasKid] using h
  simp [insertKey, hkid]

/-- An entry stops the comprehension, or it inserts a key if it has a `kid`. -/
theorem insertKey_cases (lib : Library) (jwk : Dict) :
    (stops lib jwk = true ∧ ∀ keys, insertKey lib keys jwk = .error (stopExn lib jwk)) ∨
    (stops lib jwk = false ∧ hasKid jwk = false) ∨
    (stops lib jwk = false ∧ hasKid jwk = true ∧
      ∃ key pem, ∀ keys, insertKey lib keys jwk = .ok (keys.insert key pem)) := by
  cases hkid : Dict.get? jwk "kid" with
  | none => exact .inr (.inl (by simp [stops, converts, unhashableKid, hasKid, hkid]))
  | some kid =>
      cases hpem : toPem lib jwk with
      | error exc =>
          exact .inl (by simp [stops, converts, hkid, hpem, insertKey, stopExn])
      | ok pem =>
          cases hkey : kid.hashKey? with
          | none =>
              exact .inl (by
                simp [stops, converts, unhashableKid, hkid, hpem, hkey, insertKey, stopExn])
          | some key =>
              refine .inr (.inr ⟨?_, by simp [hasKid, hkid], key, pem, ?_⟩)
              · simp [stops, converts, unhashableKid, hkid, hpem, hkey]
              · simp [insertKey, hkid, hpem, hkey]

/-- An entry without a `kid` stops nothing. -/
theorem stops_of_not_hasKid {jwk : Dict} (h : hasKid jwk = false) : stops lib jwk = false := by
  have hkid : Dict.get? jwk "kid" = none := by simpa [hasKid] using h
  simp [stops, converts, unhashableKid, hkid]

/-- The comprehension ends with the exception of the first entry that stops it,
and with a map when there is none. -/
theorem foldlM_insertKey (lib : Library) (es : List Dict) (start : Keys) :
    match es.find? (stops lib) with
    | some jwk => es.foldlM (insertKey lib) start = .error (stopExn lib jwk)
    | none => ∃ keys, es.foldlM (insertKey lib) start = .ok keys := by
  induction es generalizing start with
  | nil => exact ⟨start, rfl⟩
  | cons jwk es ih =>
      rcases insertKey_cases lib jwk with ⟨hstops, hinsert⟩ | ⟨hstops, hkid⟩ |
        ⟨hstops, _, key, pem, hinsert⟩
      · simp [hstops, hinsert, bind, Except.bind]
      · simpa [hstops, insertKey_of_not_hasKid hkid, bind, Except.bind] using ih start
      · simpa [hstops, hinsert, bind, Except.bind] using ih (start.insert key pem)

/-- Entries without a `kid` have no influence on the comprehension. -/
theorem foldlM_filter_hasKid (es : List Dict) (start : Keys) :
    (es.filter hasKid).foldlM (insertKey lib) start = es.foldlM (insertKey lib) start := by
  induction es generalizing start with
  | nil => rfl
  | cons jwk es ih =>
      cases hkid : hasKid jwk with
      | false => simp [hkid, insertKey_of_not_hasKid hkid, ih, bind, Except.bind]
      | true => simp [hkid, ih]

/-- The map has a key as soon as one entry has a `kid`. -/
theorem foldlM_eq_empty_iff {es : List Dict} {keys : Keys}
    (h : es.foldlM (insertKey lib) ∅ = .ok keys) :
    keys = ∅ ↔ ∀ jwk ∈ es, hasKid jwk = false := by
  induction es using List.reverseRecOn generalizing keys with
  | nil =>
      obtain rfl : ∅ = keys := by simpa using h
      simp
  | append_singleton es jwk ih =>
      rw [List.foldlM_append] at h
      obtain ⟨before, hes, h⟩ := Except.bind_eq_ok_iff.mp h
      have hlast : insertKey lib before jwk = .ok keys := by simpa using h
      rcases insertKey_cases lib jwk with ⟨_, hinsert⟩ | ⟨_, hkid⟩ | ⟨_, hkid, key, pem, hinsert⟩
      · simp [hinsert] at hlast
      · obtain rfl : before = keys := by simpa [insertKey_of_not_hasKid hkid] using hlast
        rw [ih hes]
        simp [or_imp, forall_and, hkid]
      · obtain rfl : before.insert key pem = keys := by simpa [hinsert] using hlast
        have present : (before.insert key pem).lookup key = some pem := Finmap.lookup_insert _
        constructor
        · intro hempty
          simp [hempty] at present
        · intro none
          simp [none jwk (by simp)] at hkid

/-! ## The key map of a document -/

section KeyMap

variable {document : Json} {es : List Dict}

theorem parseKeys_of_shape (shape : documentEntries url document = .ok es) :
    parseKeys lib url document = do
      let parsedKeys ← es.foldlM (insertKey lib) ∅
      if parsedKeys = ∅ then
        throw (.malformed (s!"JWKS document at {url} yielded no usable signing keys: 'keys' is " ++
          "missing, empty, or none of its entries carry a 'kid'.") none)
      else return parsedKeys := by
  simp [parseKeys, shape, bind, Except.bind]

theorem parseKeys_of_stops (shape : documentEntries url document = .ok es) {jwk : Dict}
    (first : es.find? (stops lib) = some jwk) :
    parseKeys lib url document = .error (stopExn lib jwk) := by
  have walk := foldlM_insertKey lib es ∅
  simp only [first] at walk
  simp [parseKeys_of_shape shape, walk, bind, Except.bind]

theorem parseKeys_of_no_kid (lib : Library) (shape : documentEntries url document = .ok es)
    (none : ∀ jwk ∈ es, hasKid jwk = false) :
    ∃ exn, parseKeys lib url document = .error exn ∧ exn.cls = .malformedJwksDocument := by
  have run : es.find? (stops lib) = Option.none := by
    simpa using fun jwk hjwk => stops_of_not_hasKid (none jwk hjwk)
  have walk := foldlM_insertKey lib es ∅
  simp only [run] at walk
  obtain ⟨keys, hkeys⟩ := walk
  obtain rfl : keys = ∅ := (foldlM_eq_empty_iff hkeys).mpr none
  rw [parseKeys_of_shape shape, hkeys]
  exact ⟨_, rfl, rfl⟩

/-- A map is installed exactly when no entry stops the walk and one has a `kid`. -/
theorem exists_parseKeys_iff (shape : documentEntries url document = .ok es) :
    (∃ keys, parseKeys lib url document = .ok keys) ↔
      es.find? (stops lib) = none ∧ ∃ jwk ∈ es, hasKid jwk = true := by
  constructor
  · rintro ⟨keys, h⟩
    constructor
    · cases first : es.find? (stops lib) with
      | none => rfl
      | some jwk => simp [parseKeys_of_stops shape first] at h
    · by_contra hnone
      obtain ⟨exn, hexn, _⟩ := parseKeys_of_no_kid lib shape (by simpa using hnone)
      simp [hexn] at h
  · rintro ⟨run, jwk, hjwk, hkid⟩
    have walk := foldlM_insertKey lib es ∅
    simp only [run] at walk
    obtain ⟨keys, hkeys⟩ := walk
    have nonempty : keys ≠ ∅ := by
      intro hempty
      simp [(foldlM_eq_empty_iff hkeys).mp hempty jwk hjwk] at hkid
    exact ⟨keys, by simp [parseKeys_of_shape shape, hkeys, nonempty, bind, Except.bind]⟩

theorem parseKeys_of_not_shape {exn : Exn} (shape : documentEntries url document = .error exn) :
    parseKeys lib url document = .error exn := by
  simp [parseKeys, shape, bind, Except.bind]

end KeyMap

/-! ## The documents that are accepted -/

/-- The elements of the `keys` list, where it is a list of objects. -/
def KeysList (document : Json) (es : List Dict) : Prop :=
  ∃ items, document = .dict items ∧ Dict.get? items "keys" = some (.list (es.map .dict))

/-- The grammar of the documents: an object with a list of objects under `keys`,
of which one has a `kid`, and every one that has a `kid` is an RSA key. -/
def Grammatical (lib : Library) (document : Json) : Prop :=
  ∃ es, KeysList document es ∧ (∃ jwk ∈ es, hasKid jwk = true) ∧
    ∀ jwk ∈ es, hasKid jwk = true → ∃ pem, toPem lib jwk = .ok pem

/-- Every `kid` in the document is a string that is not empty. -/
def NamesKeys (document : Json) : Prop :=
  ∀ jwk ∈ entries document, ∀ kid, Dict.get? jwk "kid" = some kid →
    ∃ name, name ≠ "" ∧ kid = .str name

section Documents

variable {document document' : Json} {es es' : List Dict} {c : JwksClient τ} {now : Time}

/-- The shape check passes on such a list, and where the field is missing. -/
theorem keysList_of_shape (shape : documentEntries url document = .ok es) :
    KeysList document es ∨ es = [] := by
  obtain ⟨items, rfl, hkeys⟩ := documentEntries_eq_ok_iff.mp shape
  cases hget : Dict.get? items "keys" with
  | none => exact .inr (by simpa [hget] using hkeys)
  | some value => exact .inl ⟨items, rfl, by simpa [hget] using hkeys⟩

theorem KeysList.shape (h : KeysList document es) (url : String) :
    documentEntries url document = .ok es := by
  obtain ⟨items, rfl, hkeys⟩ := h
  exact documentEntries_eq_ok_iff.mpr ⟨items, rfl, by simp [hkeys]⟩

theorem KeysList.entries_eq (h : KeysList document es) : entries document = es :=
  (documentEntries_eq (h.shape "")).symm

/-- A map is read from a list with an entry that has a `kid` and none that stops. -/
theorem exists_keysList_of_parseKeys {keys : Keys}
    (parsed : parseKeys lib url document = .ok keys) :
    ∃ es, KeysList document es ∧ es.find? (stops lib) = none ∧ ∃ jwk ∈ es, hasKid jwk = true := by
  obtain ⟨es, shape, _⟩ := Except.bind_eq_ok_iff.mp parsed
  obtain ⟨run, jwk, hjwk, hkid⟩ := (exists_parseKeys_iff shape).mp ⟨keys, parsed⟩
  rcases keysList_of_shape shape with list | rfl
  · exact ⟨es, list, run, jwk, hjwk, hkid⟩
  · cases hjwk

/-- A named entry stops the walk exactly when it cannot be converted. -/
theorem stops_eq_true_iff (named : NamesKeys document) {jwk : Dict}
    (hjwk : jwk ∈ entries document) :
    stops lib jwk = true ↔ hasKid jwk = true ∧ ¬ ∃ pem, toPem lib jwk = .ok pem := by
  cases hkid : Dict.get? jwk "kid" with
  | none => simp [stops, converts, unhashableKid, hasKid, hkid]
  | some kid =>
      obtain ⟨name, _, rfl⟩ := named jwk hjwk kid hkid
      cases hpem : toPem lib jwk <;>
        simp [stops, converts, unhashableKid, hasKid, hkid, hpem, Json.hashKey?]

/-- What is accepted is the grammar. -/
theorem exists_parseKeys_iff_grammatical (url : String) (named : NamesKeys document) :
    (∃ keys, parseKeys lib url document = .ok keys) ↔ Grammatical lib document := by
  constructor
  · rintro ⟨keys, h⟩
    obtain ⟨es, list, run, some⟩ := exists_keysList_of_parseKeys h
    refine ⟨es, list, some, ?_⟩
    intro other hother hkid'
    by_contra hpem
    have hstops := (stops_eq_true_iff named (list.entries_eq ▸ hother)).mpr ⟨hkid', hpem⟩
    exact absurd hstops (List.find?_eq_none.mp run other hother)
  · rintro ⟨es, list, some, every⟩
    refine (exists_parseKeys_iff (list.shape url)).mpr ⟨?_, some⟩
    rw [List.find?_eq_none]
    intro jwk hjwk hstops
    obtain ⟨hkid, hpem⟩ := (stops_eq_true_iff named (list.entries_eq ▸ hjwk)).mp hstops
    exact hpem (every jwk hjwk hkid)

/-- What is not accepted is malformed, where bad keys are. -/
theorem malformed_of_not_grammatical (url : String)
    (failures : ∀ jwk exn, toPem lib jwk = .error exn → exn.cls = .malformedJwksDocument)
    (named : NamesKeys document) (h : ¬ Grammatical lib document) :
    ∃ exn, parseKeys lib url document = .error exn ∧ exn.cls = .malformedJwksDocument := by
  cases shape : documentEntries url document with
  | error exn => exact ⟨exn, parseKeys_of_not_shape shape, documentEntries_eq_error shape⟩
  | ok es =>
      cases first : es.find? (stops lib) with
      | some jwk =>
          have hjwk := List.mem_of_find?_eq_some first
          have hstops := List.find?_some first
          rw [documentEntries_eq shape] at hjwk
          obtain ⟨_, hpem⟩ := (stops_eq_true_iff named hjwk).mp hstops
          refine ⟨_, parseKeys_of_stops shape first, ?_⟩
          cases hconversion : toPem lib jwk with
          | ok pem => exact absurd ⟨pem, hconversion⟩ hpem
          | error exc => simpa [stopExn, hconversion] using failures jwk exc hconversion
      | none =>
          refine parseKeys_of_no_kid lib shape ?_
          by_contra hkid
          have accepted : ∃ keys, parseKeys lib url document = .ok keys :=
            (exists_parseKeys_iff shape).mpr ⟨first, by simpa using hkid⟩
          exact h ((exists_parseKeys_iff_grammatical url named).mp accepted)

/-- Lists that differ in entries without a `kid` are read alike. -/
theorem parseKeys_eq_of_filter_eq (h : KeysList document es) (h' : KeysList document' es')
    (same : es.filter hasKid = es'.filter hasKid) :
    parseKeys lib url document = parseKeys lib url document' := by
  rw [parseKeys_of_shape (h.shape url), parseKeys_of_shape (h'.shape url),
    ← foldlM_filter_hasKid es, ← foldlM_filter_hasKid es', same]

/-- The client after a document was served. -/
theorem fetch_serving_of_ok {keys : Keys} (h : parseKeys lib c.url document = .ok keys) :
    c.fetch lib now (.ok (.serving document)) =
      (.ok (), { c with keys, fetchedAt := some now }) := by
  simp [JwksClient.fetch, fetch_serving, h, Except.map]

theorem fetch_serving_of_error {exn : Exn} (h : parseKeys lib c.url document = .error exn) :
    c.fetch lib now (.ok (.serving document)) = (.error exn, c) := by
  simp [JwksClient.fetch, fetch_serving, h, Except.map]

theorem fetch_serving_eq_ok_iff :
    (c.fetch lib now (.ok (.serving document))).1 = .ok () ↔
      ∃ keys, parseKeys lib c.url document = .ok keys := by
  cases h : parseKeys lib c.url document with
  | ok keys => simp [fetch_serving_of_ok h]
  | error exn => simp [fetch_serving_of_error h]

end Documents

/-- How a client reads a served document: what it accepts, the key map it
installs, that entries without a `kid` do not matter, and what it does otherwise. -/
structure ReadsExactly (lib : Library) (c : JwksClient τ) (now : Time) (document : Json) :
    Prop where
  accepts : (c.fetch lib now (.ok (.serving document))).1 = .ok () ↔ Grammatical lib document
  publishes : Grammatical lib document → ∀ kid,
    match lastEntry document kid with
    | some jwk => ∃ pem, toPem lib jwk = .ok pem ∧
        (c.fetch lib now (.ok (.serving document))).2.lookup kid = some pem
    | none => (c.fetch lib now (.ok (.serving document))).2.lookup kid = none
  ignores : ∀ document' es es', KeysList document es → KeysList document' es' →
    es.filter hasKid = es'.filter hasKid →
    c.fetch lib now (.ok (.serving document')) = c.fetch lib now (.ok (.serving document))
  rejects : ¬ Grammatical lib document →
    (∃ exn, (c.fetch lib now (.ok (.serving document))).1 = .error exn ∧
      exn.cls = .malformedJwksDocument) ∧
    (c.fetch lib now (.ok (.serving document))).2.keys = c.keys ∧
    (c.fetch lib now (.ok (.serving document))).2.fetchedAt = c.fetchedAt

/-- A client reads exactly the grammar, and installs exactly what is published. -/
theorem readsExactly_of_namesKeys {document : Json}
    (failures : ∀ jwk exn, toPem lib jwk = .error exn → exn.cls = .malformedJwksDocument)
    (named : NamesKeys document) (c : JwksClient τ) (now : Time) :
    ReadsExactly lib c now document := by
  constructor
  · rw [fetch_serving_eq_ok_iff, exists_parseKeys_iff_grammatical c.url named]
  · intro grammatical kid
    obtain ⟨keys, h⟩ := (exists_parseKeys_iff_grammatical c.url named).mpr grammatical
    rw [fetch_serving_of_ok h]
    exact lookup_foldlM (parseKeys_eq_ok h).1 kid
  · intro document' es es' list list' same
    simp only [JwksClient.fetch, fetch_serving, parseKeys_eq_of_filter_eq list list' same]
    cases parseKeys lib c.url document' <;> rfl
  · intro other
    obtain ⟨exn, h, hcls⟩ := malformed_of_not_grammatical c.url failures named other
    rw [fetch_serving_of_error h]
    exact ⟨⟨exn, rfl, hcls⟩, rfl, rfl⟩

/-- The sample libraries fail on keys as `_to_pem` expects. -/
theorem toPem_sample_eq_error (jwk : Dict) (exn : Exn) (h : toPem .sample jwk = .error exn) :
    exn.cls = .malformedJwksDocument := by
  rcases toPem_eq_error h with hcls | ⟨exc, hraised, hother, -⟩
  · exact hcls
  · simp only [Library.sample] at hraised
    split at hraised
    · cases hraised
    · obtain rfl := Except.error.inj hraised
      cases hother

def JwksClient.sample : JwksClient Unit where
  url := "https://auth.test/jwks.json"
  ttl := 0
  minRefetchInterval := 0
  interval_le_ttl := le_refl 0

/-- A key that is published twice, and an entry without a `kid`. -/
theorem readsExactly_of_namesKeys_sample :
    ReadsExactly .sample .sample 0 (.dict [("keys", .list [
      .dict [("kid", .str "k1"), ("kty", .str "RSA"), ("n", .str "AQAD"), ("e", .str "Aw")],
      .dict [("use", .str "enc")],
      .dict [("kid", .str "k1"), ("kty", .str "RSA"), ("n", .str "AQAF"),
        ("e", .str "Aw")]])]) := by
  apply readsExactly_of_namesKeys toPem_sample_eq_error
  intro jwk hjwk kid hkid
  have listed :
      jwk = [("kid", .str "k1"), ("kty", .str "RSA"), ("n", .str "AQAD"), ("e", .str "Aw")] ∨
      jwk = [("use", .str "enc")] ∨
      jwk = [("kid", .str "k1"), ("kty", .str "RSA"), ("n", .str "AQAF"), ("e", .str "Aw")] := by
    simpa [entries, Dict.get?] using hjwk
  rcases listed with rfl | rfl | rfl
  · exact ⟨"k1", by decide, (Option.some.inj hkid).symm⟩
  · cases hkid
  · exact ⟨"k1", by decide, (Option.some.inj hkid).symm⟩

/-! ## Keys that a token can ask for -/

/-- Some entry has a `kid` that a token can ask for. -/
def HasUsableKid (es : List Dict) : Prop :=
  ∃ jwk ∈ es, ∃ kid, kid ≠ "" ∧ Dict.get? jwk "kid" = some (.str kid)

/-- A load that succeeds brings a key that a token can ask for, and a document
without an entry for one is malformed and leaves the keys as they were. -/
structure YieldsUsableKey (lib : Library) (c : JwksClient τ) (now : Time) (document : Json) :
    Prop where
  usable : (c.fetch lib now (.ok (.serving document))).1 = .ok () →
    ∃ kid pem, kid ≠ "" ∧
      (c.fetch lib now (.ok (.serving document))).2.lookup kid = some pem
  refused : ¬ HasUsableKid (entries document) →
    (∃ exn, (c.fetch lib now (.ok (.serving document))).1 = .error exn ∧
      exn.cls = .malformedJwksDocument) ∧
    (c.fetch lib now (.ok (.serving document))).2.keys = c.keys

/-- The document has such an entry, or its elements are not all objects, or none
of them has a `kid`, or the first that stops the walk is a bad key. -/
def RefusesUnusable (lib : Library) (document : Json) : Prop :=
  ∀ es, KeysList document es → HasUsableKid es ∨ (∀ jwk ∈ es, hasKid jwk = false) ∨
    ∃ jwk exn, es.find? (stops lib) = some jwk ∧ toPem lib jwk = .error exn ∧
      exn.cls = .malformedJwksDocument

section Usable

variable {document : Json} {es : List Dict} {c : JwksClient τ} {now : Time}

/-- A key in the map comes from an entry with its `kid`. -/
theorem hasUsableKid_of_lookup {keys : Keys} {kid pem : String} (nonempty : kid ≠ "")
    (parsed : parseKeys lib url document = .ok keys) (h : keys.lookup (.str kid) = some pem) :
    HasUsableKid (entries document) := by
  obtain ⟨jwk, hlast, _⟩ := (lookup_eq_some_iff_of_parseKeys parsed).mp h
  have hjwk : jwk ∈ entries document := List.mem_reverse.mp (List.mem_of_find?_eq_some hlast)
  exact ⟨jwk, hjwk, kid, nonempty, carries_iff.mp (List.find?_some hlast)⟩

/-- An entry with a usable `kid` is in every map that is installed. -/
theorem exists_lookup_of_hasUsableKid {keys : Keys}
    (parsed : parseKeys lib url document = .ok keys) (h : HasUsableKid (entries document)) :
    ∃ kid pem, kid ≠ "" ∧ keys.lookup (.str kid) = some pem := by
  obtain ⟨jwk, hjwk, kid, nonempty, hkid⟩ := h
  cases hlookup : keys.lookup (.str kid) with
  | some pem => exact ⟨kid, pem, nonempty, hlookup⟩
  | none =>
      have absent := (lookup_eq_none_iff_of_parseKeys parsed).mp hlookup
      have hcarries := List.find?_eq_none.mp absent jwk (List.mem_reverse.mpr hjwk)
      exact absurd (carries_iff.mpr hkid) hcarries

theorem RefusesUnusable.hasUsableKid (h : RefusesUnusable lib document) {keys : Keys}
    (parsed : parseKeys lib url document = .ok keys) : HasUsableKid (entries document) := by
  obtain ⟨es, list, run, jwk, hjwk, hkid⟩ := exists_keysList_of_parseKeys parsed
  rcases h es list with usable | none | ⟨first, exn, hfirst, _⟩
  · rwa [list.entries_eq]
  · simp [none jwk hjwk] at hkid
  · simp [run] at hfirst

theorem RefusesUnusable.malformed (h : RefusesUnusable lib document) (url : String)
    (unusable : ¬ HasUsableKid (entries document)) :
    ∃ exn, parseKeys lib url document = .error exn ∧ exn.cls = .malformedJwksDocument := by
  cases shape : documentEntries url document with
  | error exn => exact ⟨exn, parseKeys_of_not_shape shape, documentEntries_eq_error shape⟩
  | ok es =>
      rcases keysList_of_shape shape with list | rfl
      · rcases h es list with usable | none | ⟨first, exn, hfirst, hpem, hcls⟩
        · rw [list.entries_eq] at unusable
          exact absurd usable unusable
        · exact parseKeys_of_no_kid lib shape none
        · refine ⟨_, parseKeys_of_stops shape hfirst, ?_⟩
          simpa [stopExn, hpem] using hcls
      · exact parseKeys_of_no_kid lib shape (by simp)

theorem RefusesUnusable.of_yieldsUsableKey (h : YieldsUsableKey lib c now document) :
    RefusesUnusable lib document := by
  intro es list
  by_cases usable : HasUsableKid es
  · exact .inl usable
  right
  rw [← list.entries_eq] at usable
  by_cases none : ∀ jwk ∈ es, hasKid jwk = false
  · exact .inl none
  right
  cases first : es.find? (stops lib) with
  | none =>
      -- The walk ends, and with a map in which no token finds its key.
      obtain ⟨keys, parsed⟩ := (exists_parseKeys_iff (list.shape c.url)).mpr
        ⟨first, by simpa using none⟩
      obtain ⟨kid, pem, nonempty, hlookup⟩ :=
        h.usable (fetch_serving_eq_ok_iff.mpr ⟨keys, parsed⟩)
      rw [fetch_serving_of_ok parsed] at hlookup
      exact absurd (hasUsableKid_of_lookup nonempty parsed hlookup) usable
  | some jwk =>
      obtain ⟨⟨exn, hexn, hcls⟩, _⟩ := h.refused usable
      rw [fetch_serving_of_error (parseKeys_of_stops (list.shape c.url) first)] at hexn
      obtain rfl := Except.error.inj hexn
      cases hpem : toPem lib jwk with
      | ok pem => simp [stopExn, hpem] at hcls
      | error exc => exact ⟨jwk, exc, rfl, hpem, by simpa [stopExn, hpem] using hcls⟩

end Usable

/-- Tokens ask for keys by strings that are not empty. The keys that a load
brings can be asked for, on any client, exactly for the documents of
`RefusesUnusable`. -/
theorem yieldsUsableKey_iff (lib : Library) (c : JwksClient τ) (now : Time) (document : Json) :
    (∀ (p : Platform) (token kid : String), selectKid p token = .ok kid → kid ≠ "") ∧
      (YieldsUsableKey lib c now document ↔ RefusesUnusable lib document) := by
  constructor
  · intro p token kid h
    obtain ⟨_, _, _, nonempty⟩ := selectKid_eq_ok h
    exact nonempty
  · constructor
    · exact .of_yieldsUsableKey
    · intro h
      constructor
      · intro loaded
        obtain ⟨keys, parsed⟩ := fetch_serving_eq_ok_iff.mp loaded
        obtain ⟨kid, pem, nonempty, hlookup⟩ :=
          exists_lookup_of_hasUsableKid parsed (h.hasUsableKid parsed)
        exact ⟨kid, pem, nonempty, by rwa [fetch_serving_of_ok parsed]⟩
      · intro unusable
        obtain ⟨exn, parsed, hcls⟩ := h.malformed c.url unusable
        rw [fetch_serving_of_error parsed]
        exact ⟨⟨exn, rfl, hcls⟩, rfl⟩

/-- A document whose one key has `null` for its `kid`. -/
def nullKid : Json :=
  .dict [("keys", .list [.dict [("kid", .null), ("kty", .str "RSA"), ("n", .str "AQAD"),
    ("e", .str "Aw")]])]

/-- A client that holds the key `k1`. -/
def JwksClient.holdsK1 : JwksClient Unit :=
  { JwksClient.sample with keys := (∅ : Keys).insert (.str "k1") "pem" }

/-- A client that holds the key `k1` loads it without an exception, and then
holds no key that a token can ask for. -/
theorem nullKid_installed : ¬ YieldsUsableKey .sample JwksClient.holdsK1 0 nullKid := by
  intro h
  obtain ⟨keys, parsed⟩ : ∃ keys, parseKeys .sample JwksClient.holdsK1.url nullKid = .ok keys :=
    ⟨_, rfl⟩
  obtain ⟨kid, pem, nonempty, hlookup⟩ := h.usable (fetch_serving_eq_ok_iff.mpr ⟨keys, parsed⟩)
  rw [fetch_serving_of_ok parsed] at hlookup
  obtain ⟨jwk, hjwk, name, _, hkid⟩ := hasUsableKid_of_lookup nonempty parsed hlookup
  have only : jwk = [("kid", .null), ("kty", .str "RSA"), ("n", .str "AQAD"),
      ("e", .str "Aw")] := by
    simpa [entries, nullKid, Dict.get?] using hjwk
  rw [only] at hkid
  cases hkid

end MestoryCore.Auth
