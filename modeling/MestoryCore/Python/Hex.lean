import Mathlib.Algebra.Group.Nat.Defs
import Mathlib.Tactic.Common

/-!
# Hexadecimal digits

Numbers printed with a fixed count of hexadecimal digits, and `int(hex, 16)` on
digits in either case.
-/

namespace Python

/-- The low `n` hexadecimal digits, most significant first. -/
def hexDigits : Nat → Nat → List Char
  | 0, _ => []
  | n + 1, value => hexDigits n (value / 16) ++ [Nat.digitChar (value % 16)]

def hexValue? (c : Char) : Option Nat :=
  (List.range 16).find? fun digit => Nat.digitChar digit = c.toLower

/-- `int(hex, 16)` on digits. -/
def ofHex? (hex : List Char) : Option Nat :=
  hex.foldlM (fun value c => (hexValue? c).map (value * 16 + ·)) 0

theorem hexValue?_digitChar {digit : Nat} (h : digit < 16) :
    hexValue? (Nat.digitChar digit) = some digit := by
  revert digit
  decide

theorem length_hexDigits (n value : Nat) : (hexDigits n value).length = n := by
  induction n generalizing value with
  | zero => rfl
  | succ n ih => simp [hexDigits, ih]

theorem hyphen_notMem_hexDigits (n value : Nat) : '-' ∉ hexDigits n value := by
  have digit : ∀ digit < 16, '-' ≠ Nat.digitChar digit := by decide
  induction n generalizing value with
  | zero => simp [hexDigits]
  | succ n ih =>
      rw [hexDigits, List.mem_append, List.mem_singleton]
      rintro (h | h)
      · exact ih _ h
      · exact digit _ (Nat.mod_lt _ (by omega)) h

theorem ofHex?_hexDigits {n value : Nat} (h : value < 16 ^ n) :
    ofHex? (hexDigits n value) = some value := by
  induction n generalizing value with
  | zero =>
      obtain rfl : value = 0 := by simpa using h
      rfl
  | succ n ih =>
      have high : value / 16 < 16 ^ n := by
        rw [Nat.pow_succ] at h
        omega
      have digit := hexValue?_digitChar (Nat.mod_lt value (show 0 < 16 by omega))
      rw [hexDigits, ofHex?, List.foldlM_append, ← ofHex?, ih high]
      simp only [Option.bind_eq_bind, Option.bind_some, List.foldlM_cons, List.foldlM_nil, digit,
        Option.map_some, Option.pure_def, Option.some.injEq]
      omega

end Python
