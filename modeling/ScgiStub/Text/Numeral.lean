import ScgiStub.Text.Utf8

/-! # Decimal numerals

Sizes are written with the digits `0` to `9` and stay below `2 ^ 64`. Reading
allows leading zeros; writing has none.
-/

namespace ScgiStub.Numeral

def isDigit (b : UInt8) : Bool :=
  0x30 ≤ b && b ≤ 0x39

def value (digits : Bytes) : Nat :=
  digits.foldl (fun n b => 10 * n + (b.toNat - 0x30)) 0

/-- Sizes and counts lie below this. -/
def bound : Nat := UInt64.size

def read? (digits : Bytes) : Option Nat :=
  if digits ≠ [] ∧ digits.all isDigit ∧ value digits < bound then some (value digits) else none

/-- The size that a numeral denotes, one plus sign before it allowed. -/
def readSigned? : Bytes → Option Nat
  | 0x2B :: digits => read? digits
  | digits => read? digits

@[simp] theorem value_nil : value [] = 0 := rfl

theorem value_append (ds : Bytes) (d : UInt8) :
    value (ds ++ [d]) = 10 * value ds + (d.toNat - 0x30) := by
  simp [value]

theorem read?_eq_some_iff {ds : Bytes} {n : Nat} :
    read? ds = some n ↔ ds ≠ [] ∧ ds.all isDigit ∧ value ds < bound ∧ value ds = n := by
  unfold read?
  split
  · next h => simp [h]
  · next h => exact ⟨nofun, fun ⟨hn, hd, hb, _⟩ => absurd ⟨hn, hd, hb⟩ h⟩

end ScgiStub.Numeral
