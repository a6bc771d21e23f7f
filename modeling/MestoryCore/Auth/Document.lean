import MestoryCore.Auth.Exception
import MestoryCore.Python.Except
import Mathlib.Data.List.Induction

/-!
# Reading a JWKS document

`fetch` is what `JwksClient._fetch` computes from the end of `http.get` before
it assigns to the client: the document and the key map, or the exception. The
walk keeps the order of the source. All entries are checked for their shape
before any is converted; a conversion happens before the entry's `kid` is used
as a key; a later entry with the same `kid` overwrites an earlier one.

`publishedKey` says what the walk is for, without its order: the conversion of
the last entry that carries a `kid`. `lookup_of_fetch` connects the two.
-/

namespace MestoryCore.Auth

open Python

/-- What `jwt.PyJWK.from_dict(jwk).key` holds: an RSA key, given by its PEM, or
a key of another type. -/
inductive PublicKey where
  | rsa (pem : String)
  | other (typeName : String)

/-- The library functions that the key source uses. `construct cls args` is the
`__dict__` of `cls(*args)`, or `none` when that raises `TypeError`. -/
structure Library where
  fromDict : Dict → Except LibraryExn PublicKey
  construct : ExnClass → List Value → Option Attributes
  repr : Json → String
  reprFloat : ℚ → String
  str : Exn → String

/-- What the client asks an `httpx.Response`. -/
structure Response where
  raiseForStatus : Except LibraryExn Unit
  json : Except LibraryExn Json

/-- The `dict` from `kid` to PEM. A document may hold a `kid` of any hashable type. -/
abbrev Keys := Finmap fun _ : Json.Key => String

/-- `_to_pem`. -/
def toPem (lib : Library) (jwk : Dict) : Except Exn String :=
  match lib.fromDict jwk with
  | .ok (.rsa pem) => .ok pem
  | .ok (.other typeName) =>
      let exc := Exn.typeError s!"Only RSA keys are supported, got {typeName}."
      .error (.malformed (lib.str exc) exc)
  | .error exc =>
      if exc.1.cls.isKeyError then .error (.malformed (lib.str exc.1) exc.1) else .error exc.1

/-- The check of one element of `keys`. -/
def entryDict (url : String) : Json → Except Exn Dict
  | .dict items => .ok items
  | entry => .error (.malformed
      s!"JWKS document at {url}: entry in 'keys' must be an object, got {entry.typeName}." none)

/-- The checks of the document's shape, up to the list of entries. -/
def documentEntries (url : String) : Json → Except Exn (List Dict)
  | .dict items =>
      match (Dict.get? items "keys").getD (.list []) with
      | .list rawKeys => rawKeys.mapM (entryDict url)
      | rawKeys => .error (.malformed
          s!"JWKS document at {url}: field 'keys' must be a list, got {rawKeys.typeName}." none)
  | document => .error (.malformed
      s!"JWKS document at {url} must be a JSON object, got {document.typeName}." none)

/-- One item of the dictionary comprehension. Python computes the key and the
value before it hashes the key, so a failed conversion hides an unhashable `kid`. -/
def insertKey (lib : Library) (keys : Keys) (jwk : Dict) : Except Exn Keys :=
  match Dict.get? jwk "kid" with
  | none => .ok keys
  | some kid =>
      match toPem lib jwk with
      | .error exc => .error exc
      | .ok pem =>
          match kid.hashKey? with
          | none => .error (.typeError s!"unhashable type: '{kid.typeName}'")
          | some key => .ok (keys.insert key pem)

/-- The key map of a document. -/
def parseKeys (lib : Library) (url : String) (document : Json) : Except Exn Keys := do
  let rawKeys ← documentEntries url document
  let parsedKeys ← rawKeys.foldlM (insertKey lib) ∅
  if parsedKeys = ∅ then
    throw (.malformed (s!"JWKS document at {url} yielded no usable signing keys: 'keys' is " ++
      "missing, empty, or none of its entries carry a 'kid'.") none)
  else return parsedKeys

/-- The document in the answer of the source. -/
def receiveDocument (lib : Library) (url : String) (got : Except LibraryExn Response) :
    Except Exn Json := do
  let response ← got.mapError Subtype.val
  response.raiseForStatus.mapError Subtype.val
  match response.json with
  | .ok document => return document
  | .error exc =>
      if exc.1.cls.isValueError then
        throw (.malformed s!"JWKS document at {url} is not valid JSON: {lib.str exc.1}" exc.1)
      else throw exc.1

/-- `_fetch` up to its assignments. -/
def fetch (lib : Library) (url : String) (got : Except LibraryExn Response) :
    Except Exn (Json × Keys) := do
  let document ← receiveDocument lib url got
  let keys ← parseKeys lib url document
  return (document, keys)

/-! ## What a document publishes -/

/-- The objects in the `keys` list of a document. -/
def entries : Json → List Dict
  | .dict items =>
      match Dict.get? items "keys" with
      | some (.list rawKeys) => rawKeys.filterMap fun
          | .dict jwk => some jwk
          | _ => none
      | _ => []
  | _ => []

/-- The entry's `kid` is this string. -/
def carries (kid : String) (jwk : Dict) : Bool :=
  match Dict.get? jwk "kid" with
  | some (.str value) => value = kid
  | _ => false

/-- The last entry of the document that carries `kid`. -/
def lastEntry (document : Json) (kid : String) : Option Dict :=
  (entries document).reverse.find? (carries kid)

/-- The key that a document publishes under `kid`. -/
def publishedKey (lib : Library) (document : Json) (kid : String) : Option String :=
  (lastEntry document kid).bind fun jwk => (toPem lib jwk).toOption

/-! ## How a load fails -/

/-- The entry does not stop the comprehension before its `kid` is hashed. -/
def converts (lib : Library) (jwk : Dict) : Bool :=
  match Dict.get? jwk "kid" with
  | none => true
  | some _ => (toPem lib jwk).toOption.isSome

/-- The entry's `kid` is a list or a dictionary. -/
def unhashableKid (jwk : Dict) : Bool :=
  match Dict.get? jwk "kid" with
  | none => false
  | some kid => kid.hashKey?.isNone

/-- An entry with an unhashable `kid` comes before the first failed conversion. -/
def reachesUnhashableKid (lib : Library) (es : List Dict) : Bool :=
  (es.takeWhile (converts lib)).any unhashableKid

/-- The source serves a document whose `keys` are objects, and the comprehension
comes to one of them with an unhashable `kid`. -/
def ServesUnhashableKid (lib : Library) (got : Except LibraryExn Response) : Prop :=
  ∃ response items es, got = .ok response ∧ response.raiseForStatus = .ok () ∧
    response.json = .ok (.dict items) ∧ Dict.get? items "keys" = some (.list (es.map .dict)) ∧
    reachesUnhashableKid lib es = true

/-- Where the exception of a failed load comes from. -/
inductive LoadFailure (lib : Library) (got : Except LibraryExn Response) : Exn → Prop where
  | request {exc : LibraryExn} (raised : got = .error exc) : LoadFailure lib got exc.1
  | status {response : Response} {exc : LibraryExn} (answered : got = .ok response)
      (raised : response.raiseForStatus = .error exc) : LoadFailure lib got exc.1
  | body {response : Response} {exc : LibraryExn} (answered : got = .ok response)
      (raised : response.json = .error exc) (other : exc.1.cls.isValueError = false) :
      LoadFailure lib got exc.1
  | conversion {jwk : Dict} {exc : LibraryExn} (raised : lib.fromDict jwk = .error exc)
      (other : exc.1.cls.isKeyError = false) : LoadFailure lib got exc.1
  | malformed {exc : Exn} (cls : exc.cls = .malformedJwksDocument) : LoadFailure lib got exc
  | unhashable {message : String} (served : ServesUnhashableKid lib got) :
      LoadFailure lib got (.typeError message)

theorem carries_iff {kid : String} {jwk : Dict} :
    carries kid jwk = true ↔ Dict.get? jwk "kid" = some (.str kid) := by
  unfold carries
  split
  · rename_i value h
    simp [h]
  · rename_i h
    simpa using fun hkid => h kid hkid

/-! ## The walk over the entries -/

section Walk

variable {lib : Library} {url : String}

/-- The shape check passes exactly on objects. -/
theorem mapM_entryDict_eq_ok_iff {rawKeys : List Json} {es : List Dict} :
    rawKeys.mapM (entryDict url) = .ok es ↔ rawKeys = es.map .dict := by
  induction rawKeys generalizing es with
  | nil => simp [eq_comm, pure, Except.pure]
  | cons entry rawKeys ih =>
      rw [List.mapM_cons, Except.bind_eq_ok_iff]
      constructor
      · rintro ⟨jwk, hentry, h⟩
        obtain ⟨rest, hrest, h⟩ := Except.bind_eq_ok_iff.mp h
        obtain rfl : jwk :: rest = es := by simpa using h
        cases entry <;> cases hentry
        rw [ih.mp hrest, List.map_cons]
      · intro h
        cases es with
        | nil => cases h
        | cons jwk rest =>
            obtain ⟨rfl, hrest⟩ := List.cons.inj h
            exact ⟨jwk, rfl, Except.bind_eq_ok_iff.mpr ⟨rest, ih.mpr hrest, rfl⟩⟩

/-- A document of the right shape is an object with a list of objects. -/
theorem documentEntries_eq_ok_iff {document : Json} {es : List Dict} :
    documentEntries url document = .ok es ↔ ∃ items, document = .dict items ∧
      (Dict.get? items "keys").getD (.list []) = .list (es.map .dict) := by
  cases document with
  | dict items =>
      simp only [documentEntries, Json.dict.injEq, exists_eq_left']
      split
      · rename_i rawKeys hraw
        rw [hraw, mapM_entryDict_eq_ok_iff, Json.list.injEq]
      · rename_i hraw
        simpa using fun h => hraw _ h
  | null | bool | int | float | str | list => simp [documentEntries]

theorem documentEntries_eq {document : Json} {es : List Dict}
    (h : documentEntries url document = .ok es) : es = entries document := by
  obtain ⟨items, rfl, hkeys⟩ := documentEntries_eq_ok_iff.mp h
  have hobjects : (es.map Json.dict).filterMap (fun | .dict jwk => some jwk | _ => none) = es := by
    simp [List.filterMap_map]
  cases hget : Dict.get? items "keys" with
  | none =>
      rw [hget] at hkeys
      obtain rfl : es = [] := by simpa using hkeys
      simp [entries, hget]
  | some value =>
      rw [hget] at hkeys
      obtain rfl : value = .list (es.map .dict) := hkeys
      simp only [entries, hget]
      exact hobjects.symm

theorem receiveDocument_eq_ok_iff {got : Except LibraryExn Response} {document : Json} :
    receiveDocument lib url got = .ok document ↔
      ∃ response, got = .ok response ∧ response.raiseForStatus = .ok () ∧
        response.json = .ok document := by
  simp only [receiveDocument, Except.bind_eq_ok_iff, Except.mapError_eq_ok_iff]
  constructor
  · rintro ⟨response, hgot, _, hstatus, h⟩
    refine ⟨response, hgot, hstatus, ?_⟩
    split at h
    · rename_i hjson
      rw [hjson, Except.pure_eq_ok_iff.mp h]
    · split at h <;> simp at h
  · rintro ⟨response, hgot, hstatus, hjson⟩
    exact ⟨response, hgot, (), hstatus, by simp [hjson]⟩

/-- One item either leaves the map or inserts the entry's conversion. -/
theorem insertKey_eq_ok {keys next : Keys} {jwk : Dict} (h : insertKey lib keys jwk = .ok next) :
    (Dict.get? jwk "kid" = none ∧ next = keys) ∨
      ∃ kid key pem, Dict.get? jwk "kid" = some kid ∧ kid.hashKey? = some key ∧
        toPem lib jwk = .ok pem ∧ next = keys.insert key pem := by
  unfold insertKey at h
  split at h
  · rename_i hkid
    exact .inl ⟨hkid, by simpa using h.symm⟩
  · rename_i kid hkid
    split at h
    · cases h
    · rename_i pem hpem
      split at h
      · cases h
      · rename_i key hkey
        exact .inr ⟨kid, key, pem, hkid, hkey, hpem, by simpa using h.symm⟩

/-- After the comprehension a string `kid` maps to the conversion of the last
entry that carries it. The induction is on the entries from the end, because
the last one decides. -/
theorem lookup_foldlM {es : List Dict} {start keys : Keys}
    (h : es.foldlM (insertKey lib) start = .ok keys) (kid : String) :
    match es.reverse.find? (carries kid) with
    | some jwk => ∃ pem, toPem lib jwk = .ok pem ∧ keys.lookup (.str kid) = some pem
    | none => keys.lookup (.str kid) = start.lookup (.str kid) := by
  induction es using List.reverseRecOn generalizing keys with
  | nil =>
      obtain rfl : start = keys := by simpa using h
      rfl
  | append_singleton es jwk ih =>
      rw [List.foldlM_append] at h
      obtain ⟨middle, hes, h⟩ := Except.bind_eq_ok_iff.mp h
      have hlast : insertKey lib middle jwk = .ok keys := by simpa using h
      have before := ih hes
      rw [List.reverse_append, List.reverse_singleton, List.singleton_append]
      rcases insertKey_eq_ok hlast with ⟨hkid, rfl⟩ | ⟨value, key, pem, hkid, hkey, hpem, rfl⟩
      · have hcarries : carries kid jwk = false := by simp [carries, hkid]
        simpa only [List.find?_cons, hcarries] using before
      · by_cases hcarries : carries kid jwk = true
        · obtain rfl : value = .str kid := by
            simpa [hkid] using carries_iff.mp hcarries
          obtain rfl : key = .str kid := by simpa [Json.hashKey?] using hkey.symm
          simp only [List.find?_cons, hcarries]
          exact ⟨pem, hpem, Finmap.lookup_insert _⟩
        · have hne : Json.Key.str kid ≠ key := by
            rintro rfl
            rw [Json.hashKey?_eq_str_iff] at hkey
            exact hcarries (carries_iff.mpr (hkey ▸ hkid))
          simp only [Bool.not_eq_true] at hcarries
          simpa only [List.find?_cons, hcarries, Finmap.lookup_insert_of_ne _ hne] using before

theorem parseKeys_eq_ok {document : Json} {keys : Keys}
    (h : parseKeys lib url document = .ok keys) :
    (entries document).foldlM (insertKey lib) ∅ = .ok keys ∧ keys ≠ ∅ := by
  obtain ⟨es, hes, hwalk⟩ := Except.bind_eq_ok_iff.mp h
  obtain ⟨parsed, hparsed, hcheck⟩ := Except.bind_eq_ok_iff.mp hwalk
  obtain rfl := documentEntries_eq hes
  by_cases hempty : parsed = ∅
  · simp [hempty] at hcheck
  · obtain rfl : parsed = keys := by simpa [hempty] using hcheck
    exact ⟨hparsed, hempty⟩

/-- The key map of a document is what the document publishes. -/
theorem lookup_of_parseKeys {document : Json} {keys : Keys}
    (h : parseKeys lib url document = .ok keys) (kid : String) :
    keys.lookup (.str kid) = publishedKey lib document kid := by
  have hwalk := lookup_foldlM (parseKeys_eq_ok h).1 kid
  unfold publishedKey lastEntry
  cases hfind : (entries document).reverse.find? (carries kid) with
  | none =>
      rw [hfind] at hwalk
      simpa using hwalk
  | some jwk =>
      rw [hfind] at hwalk
      obtain ⟨pem, hpem, hlookup⟩ := hwalk
      simp [hlookup, hpem, Except.toOption]

/-- The map holds the conversion of the last entry that carries a `kid`. -/
theorem lookup_eq_some_iff_of_parseKeys {document : Json} {keys : Keys} {kid pem : String}
    (h : parseKeys lib url document = .ok keys) :
    keys.lookup (.str kid) = some pem ↔
      ∃ jwk, lastEntry document kid = some jwk ∧ toPem lib jwk = .ok pem := by
  rw [lookup_of_parseKeys h, publishedKey, Option.bind_eq_some_iff]
  simp only [Except.toOption_eq_some_iff]

theorem lookup_eq_none_iff_of_parseKeys {document : Json} {keys : Keys} {kid : String}
    (h : parseKeys lib url document = .ok keys) :
    keys.lookup (.str kid) = none ↔ lastEntry document kid = none := by
  have hwalk := lookup_foldlM (parseKeys_eq_ok h).1 kid
  cases hlast : (entries document).reverse.find? (carries kid) with
  | none => simpa [hlast, lastEntry] using hwalk
  | some jwk =>
      rw [hlast] at hwalk
      obtain ⟨pem, _, hlookup⟩ := hwalk
      simp [hlookup, lastEntry, hlast]

theorem fetch_eq_ok {got : Except LibraryExn Response} {document : Json} {keys : Keys}
    (h : fetch lib url got = .ok (document, keys)) :
    receiveDocument lib url got = .ok document ∧ parseKeys lib url document = .ok keys := by
  obtain ⟨d, hdoc, h⟩ := Except.bind_eq_ok_iff.mp h
  obtain ⟨k, hkeys, h⟩ := Except.bind_eq_ok_iff.mp h
  obtain ⟨rfl, rfl⟩ : d = document ∧ k = keys := by simpa using h
  exact ⟨hdoc, hkeys⟩

theorem toPem_eq_error {jwk : Dict} {exn : Exn} (h : toPem lib jwk = .error exn) :
    exn.cls = .malformedJwksDocument ∨
      ∃ exc, lib.fromDict jwk = .error exc ∧ exc.1.cls.isKeyError = false ∧ exc.1 = exn := by
  unfold toPem at h
  split at h
  · cases h
  · left
    rw [← Except.error.inj h]
    rfl
  · rename_i exc hexc
    split at h
    · left
      rw [← Except.error.inj h]
      rfl
    · rename_i hkey
      exact .inr ⟨exc, hexc, by simpa using hkey, Except.error.inj h⟩

theorem entryDict_eq_error {entry : Json} {exn : Exn} (h : entryDict url entry = .error exn) :
    exn.cls = .malformedJwksDocument := by
  cases entry <;> cases h <;> rfl

theorem mapM_entryDict_eq_error {rawKeys : List Json} {exn : Exn}
    (h : rawKeys.mapM (entryDict url) = .error exn) : exn.cls = .malformedJwksDocument := by
  induction rawKeys with
  | nil => simp at h
  | cons entry rawKeys ih =>
      rw [List.mapM_cons] at h
      rcases Except.bind_eq_error_iff.mp h with hentry | ⟨jwk, _, htail⟩
      · exact entryDict_eq_error hentry
      · rcases Except.bind_eq_error_iff.mp htail with hrest | ⟨rest, _, hpure⟩
        · exact ih hrest
        · simp at hpure

theorem documentEntries_eq_error {document : Json} {exn : Exn}
    (h : documentEntries url document = .error exn) : exn.cls = .malformedJwksDocument := by
  unfold documentEntries at h
  split at h
  · split at h
    · exact mapM_entryDict_eq_error h
    · rw [← Except.error.inj h]
      rfl
  · rw [← Except.error.inj h]
    rfl

/-- The comprehension fails with the first conversion that fails, or with the
first unhashable `kid`, whichever the walk meets first. -/
theorem foldlM_eq_error {es : List Dict} {start : Keys} {exn : Exn}
    (h : es.foldlM (insertKey lib) start = .error exn) :
    (exn.cls = .malformedJwksDocument ∨ ∃ jwk exc, lib.fromDict jwk = .error exc ∧
        exc.1.cls.isKeyError = false ∧ exc.1 = exn) ∨
      reachesUnhashableKid lib es = true ∧ ∃ message, exn = .typeError message := by
  induction es generalizing start with
  | nil => simp at h
  | cons jwk es ih =>
      rw [List.foldlM_cons] at h
      cases hkid : Dict.get? jwk "kid" with
      | none =>
          have hstep : insertKey lib start jwk = .ok start := by simp [insertKey, hkid]
          have hreach : reachesUnhashableKid lib (jwk :: es) = reachesUnhashableKid lib es := by
            simp [reachesUnhashableKid, converts, unhashableKid, hkid]
          rw [hreach]
          exact ih (by simpa [hstep, bind, Except.bind] using h)
      | some kid =>
          cases hpem : toPem lib jwk with
          | error exc =>
              have hexn : exc = exn := by
                simpa [insertKey, hkid, hpem, bind, Except.bind] using h
              subst hexn
              left
              exact (toPem_eq_error hpem).imp_right fun ⟨exc', hraised⟩ => ⟨jwk, exc', hraised⟩
          | ok pem =>
              cases hkey : kid.hashKey? with
              | none =>
                  right
                  refine ⟨?_, s!"unhashable type: '{kid.typeName}'", ?_⟩
                  · simp [reachesUnhashableKid, converts, unhashableKid, hkid, hpem, hkey]
                  · simpa [insertKey, hkid, hpem, hkey, bind, Except.bind, eq_comm] using h
              | some key =>
                  have hstep : insertKey lib start jwk = .ok (start.insert key pem) := by
                    simp [insertKey, hkid, hpem, hkey]
                  have hreach :
                      reachesUnhashableKid lib (jwk :: es) = reachesUnhashableKid lib es := by
                    simp [reachesUnhashableKid, converts, unhashableKid, hkid, hpem, hkey]
                  rw [hreach]
                  exact ih (by simpa [hstep, bind, Except.bind] using h)

/-- Reaching an unhashable `kid` is a `TypeError`, whatever the map so far. -/
theorem foldlM_of_reachesUnhashableKid {es : List Dict} (start : Keys)
    (h : reachesUnhashableKid lib es = true) :
    ∃ message, es.foldlM (insertKey lib) start = .error (.typeError message) := by
  induction es generalizing start with
  | nil => simp [reachesUnhashableKid] at h
  | cons jwk es ih =>
      rw [List.foldlM_cons]
      cases hkid : Dict.get? jwk "kid" with
      | none =>
          have hrest := ih start (by
            simpa [reachesUnhashableKid, converts, unhashableKid, hkid] using h)
          simpa [insertKey, hkid, bind, Except.bind] using hrest
      | some kid =>
          cases hpem : toPem lib jwk with
          | error exc => simp [reachesUnhashableKid, converts, hkid, hpem] at h
          | ok pem =>
              cases hkey : kid.hashKey? with
              | none => exact ⟨_, by simp [insertKey, hkid, hpem, hkey, bind, Except.bind]; rfl⟩
              | some key =>
                  have hrest := ih (start.insert key pem) (by
                    simpa [reachesUnhashableKid, converts, unhashableKid, hkid, hpem, hkey]
                      using h)
                  simpa [insertKey, hkid, hpem, hkey, bind, Except.bind] using hrest

theorem ServesUnhashableKid.of_reaches {got : Except LibraryExn Response} {document : Json}
    {es : List Dict} (received : receiveDocument lib url got = .ok document)
    (shape : documentEntries url document = .ok es) (h : reachesUnhashableKid lib es = true) :
    ServesUnhashableKid lib got := by
  obtain ⟨response, hgot, hstatus, hjson⟩ := receiveDocument_eq_ok_iff.mp received
  obtain ⟨items, rfl, hkeys⟩ := documentEntries_eq_ok_iff.mp shape
  cases hget : Dict.get? items "keys" with
  | none =>
      -- Without the field there is no entry to come to.
      rw [hget] at hkeys
      obtain rfl : es = [] := by simpa using hkeys
      cases h
  | some value =>
      rw [hget] at hkeys
      obtain rfl : value = .list (es.map .dict) := hkeys
      exact ⟨response, items, es, hgot, hstatus, hjson, hget, h⟩

/-- Every failure of a load has one of the listed origins. -/
theorem LoadFailure.of_fetch {got : Except LibraryExn Response} {exn : Exn}
    (h : fetch lib url got = .error exn) : LoadFailure lib got exn := by
  rcases Except.bind_eq_error_iff.mp h with hreceive | ⟨document, hdocument, hrest⟩
  · rcases Except.bind_eq_error_iff.mp hreceive with hgot | ⟨response, hgot, hstatus⟩
    · obtain ⟨exc, hexc, rfl⟩ := Except.mapError_eq_error_iff.mp hgot
      exact .request hexc
    · have answered := Except.mapError_eq_ok_iff.mp hgot
      rcases Except.bind_eq_error_iff.mp hstatus with hraised | ⟨_, _, hbody⟩
      · obtain ⟨exc, hexc, rfl⟩ := Except.mapError_eq_error_iff.mp hraised
        exact .status answered hexc
      · cases hjson : response.json with
        | ok document => simp [hjson] at hbody
        | error exc =>
            rw [hjson] at hbody
            cases hvalue : exc.1.cls.isValueError with
            | true =>
                refine .malformed ?_
                simp only [hvalue, if_true, Except.throw_eq_error_iff] at hbody
                rw [← hbody]
                rfl
            | false =>
                simp only [hvalue, Bool.false_eq_true, if_false,
                  Except.throw_eq_error_iff] at hbody
                rw [← hbody]
                exact .body answered hjson hvalue
  · rcases Except.bind_eq_error_iff.mp hrest with hparse | ⟨keys, _, hpure⟩
    · rcases Except.bind_eq_error_iff.mp hparse with hentries | ⟨es, hentries, hwalk⟩
      · exact .malformed (documentEntries_eq_error hentries)
      · rcases Except.bind_eq_error_iff.mp hwalk with hfold | ⟨parsed, _, hcheck⟩
        · rcases foldlM_eq_error hfold with (hcls | ⟨jwk, exc, hraised, hother, rfl⟩) |
            ⟨hreach, message, rfl⟩
          · exact .malformed hcls
          · exact .conversion hraised hother
          · exact .unhashable (.of_reaches hdocument hentries hreach)
        · by_cases hempty : parsed = ∅
          · refine .malformed ?_
            simp only [hempty, if_true, Except.throw_eq_error_iff] at hcheck
            rw [← hcheck]
            rfl
          · simp [hempty] at hcheck
    · simp at hpure

/-- No load raises `UnknownSigningKeyError`: that class is for lookups. -/
theorem fetch_ne_unknownSigningKey {got : Except LibraryExn Response} {exn : Exn}
    (h : fetch lib url got = .error exn) : exn.cls ≠ .unknownSigningKey := by
  have library (exc : LibraryExn) : exc.1.cls ≠ .unknownSigningKey := by
    intro hcls
    have hown := exc.2
    rw [hcls] at hown
    cases hown
  cases LoadFailure.of_fetch h with
  | request | status | body | conversion => exact library _
  | malformed hcls => simp [hcls]
  | unhashable => simp

/-- A document in which the walk reaches an unhashable `kid` is a `TypeError`. -/
theorem fetch_of_servesUnhashableKid {got : Except LibraryExn Response}
    (h : ServesUnhashableKid lib got) :
    ∃ message, fetch lib url got = .error (.typeError message) := by
  obtain ⟨response, items, es, hgot, hstatus, hjson, hkeys, hreach⟩ := h
  have hdocument : receiveDocument lib url got = .ok (.dict items) :=
    receiveDocument_eq_ok_iff.mpr ⟨response, hgot, hstatus, hjson⟩
  have hentries : documentEntries url (.dict items) = .ok es :=
    documentEntries_eq_ok_iff.mpr ⟨items, rfl, by simp [hkeys]⟩
  obtain ⟨message, hfold⟩ := foldlM_of_reachesUnhashableKid ∅ hreach
  exact ⟨message, by simp [fetch, parseKeys, hdocument, hentries, hfold, bind, Except.bind]⟩

end Walk

/-! ## Values for closed runs -/

/-- The libraries on the inputs of the closed runs: RSA keys with a modulus and an
exponent are read, and an `httpx.HTTPStatusError` cannot be built from its `args`. -/
def Library.sample : Library where
  fromDict jwk :=
    match Dict.get? jwk "kty", Dict.get? jwk "n", Dict.get? jwk "e" with
    | some (.str "RSA"), some (.str modulus), some (.str _) =>
        .ok (.rsa s!"-----BEGIN PUBLIC KEY-----\n{modulus}\n-----END PUBLIC KEY-----\n")
    | _, _, _ => .error ⟨{ cls := .invalidKey, args := [.str "Failed to load key"] }, rfl⟩
  construct
    | .httpxError _, _ => none
    | _, _ => some ∅
  repr
    | .str value => s!"'{value}'"
    | _ => "None"
  reprFloat value := s!"{value.num / value.den}.0"
  str
    | { args := [.str message], .. } => message
    | _ => ""

/-- An answer with one RSA key for each `kid`. -/
def Response.sample (kids : List String) : Response where
  raiseForStatus := .ok ()
  json := .ok (.dict [("keys", .list (kids.map fun kid =>
    .dict [("kid", .str kid), ("kty", .str "RSA"), ("n", .str kid), ("e", .str "Aw")]))])

/-- An answer with status 503 and an empty body. -/
def Response.unavailable : Response where
  raiseForStatus := .error
    ⟨{ cls := .httpxError "HTTPStatusError", args := [.str "503 Service Unavailable"] }, rfl⟩
  json := .error ⟨.valueError "Expecting value", rfl⟩

end MestoryCore.Auth
