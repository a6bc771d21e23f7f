import Mathlib.Algebra.Order.Ring.Rat
import Mathlib.Data.Finmap

/-!
# Values that Python's JSON reader produces

`Json` is the type of what `json.loads` returns: it keeps `int` and `float`
apart, because error texts print the type name, and its floats include the
`NaN` and `Infinity` that the reader accepts. A dictionary is the list of its
items; a later item with the same name wins, as in the reader.

Only some values can be dictionary keys. `hashKey?` is `hash(value)` together
with the equality of keys: numbers of the three numeric types are one key when
they are numerically equal, and lists and dictionaries raise `TypeError`.
-/

namespace Python

/-- The value of a number. The reader returns one `NaN` object, so `NaN` is a
key equal to itself. -/
inductive Number where
  | finite (value : ℚ)
  | infinite (negative : Bool)
  | nan
  deriving DecidableEq

inductive Json where
  | null
  | bool (value : Bool)
  | int (value : Int)
  | float (value : Number)
  | str (value : String)
  | list (items : List Json)
  | dict (items : List (String × Json))

/-- The items of a `dict` with string names. -/
abbrev Dict := List (String × Json)

/-- `items.get(name)`, and `name in items` by `Option.isSome`. -/
def Dict.get? (items : Dict) (name : String) : Option Json :=
  items.reverse.lookup name

/-- In an object with distinct names every item is found. -/
theorem Dict.get?_eq_some_of_mem {items : Dict} (distinct : (items.map Prod.fst).Nodup)
    {item : String × Json} (h : item ∈ items) : items.get? item.1 = some item.2 := by
  obtain ⟨before, after, hsplit⟩ := List.append_of_mem (List.mem_reverse.mpr h)
  rw [Dict.get?, List.lookup_eq_some_iff]
  refine ⟨before, after, hsplit, ?_⟩
  intro other hother
  have apart : (items.reverse.map Prod.fst).Nodup := by
    rw [List.map_reverse]
    exact List.nodup_reverse.mpr distinct
  rw [hsplit, List.map_append, List.nodup_append] at apart
  have hne := apart.2.2 other.1 (List.mem_map_of_mem hother) item.1 (by simp)
  simpa using hne.symm

theorem Dict.get?_eq_none_iff {items : Dict} {name : String} :
    items.get? name = none ↔ name ∉ items.map Prod.fst := by
  rw [Dict.get?, List.lookup_eq_none_iff]
  constructor
  · intro apart known
    obtain ⟨item, hitem, rfl⟩ := List.mem_map.mp known
    simpa using apart item (List.mem_reverse.mpr hitem)
  · intro unknown item hitem
    rw [bne_iff_ne]
    rintro rfl
    exact unknown (List.mem_map_of_mem (List.mem_reverse.mp hitem))

namespace Json

/-- `type(value).__name__`. -/
def typeName : Json → String
  | .null => "NoneType"
  | .bool _ => "bool"
  | .int _ => "int"
  | .float _ => "float"
  | .str _ => "str"
  | .list _ => "list"
  | .dict _ => "dict"

/-- A value as a dictionary key, up to Python's equality of keys. -/
inductive Key where
  | none
  | number (value : Number)
  | str (value : String)
  deriving DecidableEq

/-- `none` is the `TypeError` for an unhashable value. -/
def hashKey? : Json → Option Key
  | .null => some .none
  | .bool value => some (.number (.finite (if value then 1 else 0)))
  | .int value => some (.number (.finite value))
  | .float value => some (.number value)
  | .str value => some (.str value)
  | .list _ => Option.none
  | .dict _ => Option.none

/-- Only a string is the key of a string. -/
@[simp] theorem hashKey?_eq_str_iff {value : Json} {s : String} :
    value.hashKey? = some (.str s) ↔ value = .str s := by
  cases value <;> simp [hashKey?]

end Json
end Python
