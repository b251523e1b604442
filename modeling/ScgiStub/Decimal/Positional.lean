/-! # Decimal places

Positional notation without an exponent and without zeros that mean nothing.
-/

namespace ScgiStub.Decimal

/-- The point and `n` out of `10 ^ places` behind it. Zeros at the end are left
out, and the point too if nothing is left after it. -/
def fraction (places n : Nat) : String :=
  let digits := Nat.toDigits 10 n
  let padded := List.replicate (places - digits.length) '0' ++ digits
  match (padded.reverse.dropWhile (· = '0')).reverse with
  | [] => ""
  | shown => String.ofList ('.' :: shown)

def positional (digits : Nat) (exponent : Int) : String :=
  let places := (-exponent).toNat
  let unit := Nat.pow 10 places
  let whole := digits * Nat.pow 10 exponent.toNat / unit
  toString whole ++ if places = 0 then "" else fraction places (digits % unit)

end ScgiStub.Decimal
