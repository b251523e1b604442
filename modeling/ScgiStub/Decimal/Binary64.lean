import ScgiStub.Decimal.Rounding

/-! # Binary64 numbers

A finite number is a mantissa below `2 ^ 53` times a power of two from
`2 ^ (-1074)` to `2 ^ 971`. Numbers without such a form are rounded to the
nearest that has one.
-/

namespace ScgiStub

inductive Binary64 where
  | nan
  | infinite (negative : Bool)
  | finite (negative : Bool) (mantissa : Nat) (exponent : Int)
  deriving DecidableEq, Repr, Inhabited

namespace Binary64

def minExponent : Int := -1074

def maxExponent : Int := 971

/-- Mantissas lie below this, and from half of it on unless the exponent is the
least. -/
def mantissaBound : Nat := Nat.pow 2 53

def binaryLog (num den : Nat) : Int :=
  let e : Int := num.log2 - den.log2
  if den * Nat.pow 2 e.toNat ≤ num * Nat.pow 2 (-e).toNat then e else e - 1

/-- The number nearest to `num / den`; a mantissa that is even wins a tie. -/
def ofRatio (negative : Bool) (num den : Nat) : Binary64 :=
  let e := max minExponent (binaryLog num den - 52)
  let mantissa := Decimal.roundDiv (num * Nat.pow 2 (-e).toNat) (den * Nat.pow 2 e.toNat)
  let (mantissa, e) := if mantissa = mantissaBound then (mantissa / 2, e + 1) else (mantissa, e)
  if maxExponent < e then .infinite negative else .finite negative mantissa e

/-- The number nearest to `digits * 10 ^ exponent`. Far outside the range of
finite numbers no powers are computed. -/
def ofDecimal (negative : Bool) (digits : Nat) (exponent : Int) : Binary64 :=
  let places : Int := (Nat.toDigits 10 digits).length
  if digits = 0 ∨ exponent + places < -330 then .finite negative 0 minExponent
  else if 330 < exponent + places then .infinite negative
  else ofRatio negative (digits * Nat.pow 10 exponent.toNat) (Nat.pow 10 (-exponent).toNat)

def ofInt (n : Int) : Binary64 :=
  ofDecimal (n < 0) n.natAbs 0

end Binary64

end ScgiStub
