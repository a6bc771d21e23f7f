import MestoryCore.Python.Hex

/-!
# JSON text of flat objects

The text of an object whose values are strings or `null`, written without
spaces, and a reader for that form. A quote, a backslash, and the control
characters are escaped; every other character stands for itself.

`readObject_writeObject` is the round trip. Each reader consumes exactly what
its writer wrote and returns the rest of the text, so the rules compose.
-/

namespace Python.JsonText

/-- A name with its string, or with `null`. -/
abbrev Item := String × Option String

def escape (c : Char) : List Char :=
  if c = '"' then ['\\', '"']
  else if c = '\\' then ['\\', '\\']
  else if c.toNat < 32 then '\\' :: 'u' :: hexDigits 4 c.toNat
  else [c]

def writeString (s : String) : List Char := '"' :: (s.toList.flatMap escape ++ ['"'])

def writeItem : Item → List Char
  | (name, some s) => writeString name ++ ':' :: writeString s
  | (name, none) => writeString name ++ [':', 'n', 'u', 'l', 'l']

/-- The items that are left, and the closing brace. -/
def writeTail : List Item → List Char
  | [] => ['}']
  | item :: items => ',' :: (writeItem item ++ writeTail items)

def writeObject : List Item → String
  | [] => "{}"
  | item :: items => String.ofList ('{' :: (writeItem item ++ writeTail items))

/-- The characters up to the closing quote. -/
def readChars : List Char → Option (List Char × List Char)
  | [] => none
  | '"' :: rest => some ([], rest)
  | '\\' :: 'u' :: a :: b :: c :: d :: rest => do
      let value ← ofHex? [a, b, c, d]
      let (cs, rest) ← readChars rest
      return (Char.ofNat value :: cs, rest)
  | '\\' :: c :: rest => do
      let (cs, rest) ← readChars rest
      return (c :: cs, rest)
  | c :: rest => do
      let (cs, rest) ← readChars rest
      return (c :: cs, rest)

def readString : List Char → Option (String × List Char)
  | '"' :: rest => (readChars rest).map fun r => (String.ofList r.1, r.2)
  | _ => none

def readItem (text : List Char) : Option (Item × List Char) := do
  let (name, rest) ← readString text
  match rest with
  | ':' :: 'n' :: 'u' :: 'l' :: 'l' :: rest => return ((name, none), rest)
  | ':' :: rest => do
      let (s, rest) ← readString rest
      return ((name, some s), rest)
  | _ => none

/-- The items up to the closing brace, `fuel` of them at most. -/
def readTail : Nat → List Char → Option (List Item)
  | _, ['}'] => some []
  | fuel + 1, ',' :: rest => do
      let (item, rest) ← readItem rest
      let items ← readTail fuel rest
      return item :: items
  | _, _ => none

def readObject (text : String) : Option (List Item) :=
  match text.toList with
  | ['{', '}'] => some []
  | '{' :: rest => do
      let (item, rest) ← readItem rest
      let items ← readTail text.length rest
      return item :: items
  | _ => none

/-- An escaped character is read back, and the rest of the text is left. -/
theorem readChars_escape (c : Char) (rest : List Char) :
    readChars (escape c ++ rest) = (readChars rest).map fun r => (c :: r.1, r.2) := by
  unfold escape
  split_ifs with quote backslash control
  · subst quote
    cases hrest : readChars rest <;> simp [readChars, hrest]
  · subst backslash
    cases hrest : readChars rest <;> simp [readChars, hrest]
  · have read : ofHex? (hexDigits 4 c.toNat) = some c.toNat := ofHex?_hexDigits (by omega)
    simp only [hexDigits, List.nil_append, List.cons_append] at read ⊢
    cases hrest : readChars rest <;> simp [readChars, read, hrest]
  · rw [List.singleton_append, readChars]
    · cases readChars rest <;> rfl
    all_goals simp_all

theorem readChars_flatMap (cs rest : List Char) :
    readChars (cs.flatMap escape ++ '"' :: rest) = some (cs, rest) := by
  induction cs with
  | nil => simp [readChars]
  | cons c cs ih => simp [readChars_escape, ih]

theorem readString_writeString (s : String) (rest : List Char) :
    readString (writeString s ++ rest) = some (s, rest) := by
  simp [writeString, readString, readChars_flatMap]

theorem readItem_writeItem (item : Item) (rest : List Char) :
    readItem (writeItem item ++ rest) = some (item, rest) := by
  obtain ⟨name, value⟩ := item
  cases value with
  | none => simp [writeItem, readItem, readString_writeString]
  | some s =>
      have quoted : writeString s = '"' :: (s.toList.flatMap escape ++ ['"']) := rfl
      rw [writeItem, List.append_assoc, readItem, readString_writeString]
      simp only [List.cons_append, Option.bind_eq_bind, Option.bind_some]
      -- The reader looks at the first character of the value to tell it from `null`.
      rw [quoted]
      simp [readString, readChars_flatMap]

theorem readTail_writeTail {items : List Item} {fuel : Nat} (h : items.length ≤ fuel) :
    readTail fuel (writeTail items) = some items := by
  induction items generalizing fuel with
  | nil => cases fuel <;> rfl
  | cons item items ih =>
      cases fuel with
      | zero => simp at h
      | succ fuel =>
          have rest := ih (by simpa using h)
          simp [writeTail, readTail, readItem_writeItem, rest]

theorem length_le_writeTail (items : List Item) : items.length ≤ (writeTail items).length := by
  induction items with
  | nil => simp
  | cons item items ih =>
      simp only [writeTail, List.length_cons, List.length_append]
      omega

/-- The text of an object is read back as its items. -/
theorem readObject_writeObject (items : List Item) :
    readObject (writeObject items) = some items := by
  cases items with
  | nil => rfl
  | cons item items =>
      have text : (writeObject (item :: items)).toList =
          '{' :: (writeItem item ++ writeTail items) :=
        String.toList_ofList
      have fuel : items.length ≤ (writeObject (item :: items)).length := by
        have tail := length_le_writeTail items
        rw [← String.length_toList, text, List.length_cons, List.length_append]
        omega
      obtain ⟨rest, hitem⟩ : ∃ rest, writeItem item = '"' :: rest := by
        obtain ⟨name, value⟩ := item
        cases value <;> exact ⟨_, rfl⟩
      have read := readItem_writeItem item (writeTail items)
      rw [readObject, text]
      rw [hitem] at read ⊢
      simp only [List.cons_append] at read ⊢
      simp [read, readTail_writeTail fuel]

end Python.JsonText
