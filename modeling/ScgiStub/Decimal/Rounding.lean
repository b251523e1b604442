/-! # Rounding to the nearest integer -/

namespace ScgiStub.Decimal

/-- The integer nearest to `num / den`, the even one of two that are equally
near. -/
def roundDiv (num den : Nat) : Nat :=
  let quotient := num / den
  match compare (2 * (num % den)) den with
  | .lt => quotient
  | .gt => quotient + 1
  | .eq => quotient + quotient % 2

def scaled (n : Nat) (e : Int) : Nat × Nat :=
  (n * Nat.pow 2 e.toNat, Nat.pow 2 (-e).toNat)

end ScgiStub.Decimal
