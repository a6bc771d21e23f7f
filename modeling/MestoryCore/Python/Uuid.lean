import MestoryCore.Python.Hex

/-!
# UUIDs

`uuid.UUID` is a number of 128 bits. `str` prints it as 32 hexadecimal digits in
five groups, and `ofStr?` reads that form back, in either case of the letters.
-/

namespace Python

structure Uuid where
  value : BitVec 128
  deriving DecidableEq

namespace Uuid

def digits (u : Uuid) : List Char := hexDigits 32 u.value.toNat

/-- `str(u)`. -/
def str (u : Uuid) : String :=
  let hex := u.digits
  "-".intercalate ([hex.take 8, (hex.drop 8).take 4, (hex.drop 12).take 4, (hex.drop 16).take 4,
    hex.drop 20].map String.ofList)

def ofStr? (s : String) : Option Uuid :=
  let hex := s.toList.filter (· != '-')
  if hex.length = 32 then (ofHex? hex).map fun value => ⟨.ofNat 128 value⟩ else none

/-- The hyphens of the printed form stand between its digits. -/
theorem filter_str (u : Uuid) : u.str.toList.filter (· != '-') = u.digits := by
  have keep : ∀ hex : List Char, hex ⊆ u.digits → hex.filter (· != '-') = hex := by
    intro hex sub
    apply List.filter_eq_self.mpr
    intro c hc
    rw [bne_iff_ne]
    rintro rfl
    exact hyphen_notMem_hexDigits _ _ (sub hc)
  have step (i n : Nat) : (u.digits.drop i).take n ++ u.digits.drop (i + n) = u.digits.drop i := by
    rw [← List.drop_drop, List.take_append_drop]
  have first := keep (u.digits.take 8) (List.take_subset _ _)
  have last := keep (u.digits.drop 20) (List.drop_subset _ _)
  have middle (i : Nat) : ((u.digits.drop i).take 4).filter (· != '-') = (u.digits.drop i).take 4 :=
    keep _ fun _ hc => List.drop_subset _ _ (List.take_subset _ _ hc)
  calc u.str.toList.filter (· != '-')
      = u.digits.take 8 ++ ((u.digits.drop 8).take 4 ++ ((u.digits.drop 12).take 4 ++
          ((u.digits.drop 16).take 4 ++ u.digits.drop 20))) := by
        simp [str, first, middle, last]
    _ = u.digits := by rw [step 16 4, step 12 4, step 8 4, List.take_append_drop]

/-- A printed UUID is read back. -/
theorem ofStr?_str (u : Uuid) : ofStr? u.str = some u := by
  have small : u.value.toNat < 16 ^ 32 := u.value.isLt
  simp [ofStr?, filter_str, digits, length_hexDigits, ofHex?_hexDigits small]

end Uuid
end Python
