import ScgiStub.Decimal.Binary64
import ScgiStub.Decimal.Positional

/-! # The shortest decimal that reads back

Of the decimals that a number is nearest to, its text has one with the fewest
digits, and of those the one closest to it.
-/

namespace ScgiStub.Binary64

/-- A positive number and the interval that rounds to it, all three over one
denominator. -/
structure Interval where
  low : Nat
  value : Nat
  high : Nat
  den : Nat
  closed : Bool

/-- The interval of `mantissa * 2 ^ exponent`. The neighbour below is only half
as far away if it has a smaller exponent. -/
def interval (mantissa : Nat) (exponent : Int) : Interval :=
  let (unit, den) := Decimal.scaled 1 (exponent - 2)
  let below := if 2 * mantissa = mantissaBound ∧ minExponent < exponent then 1 else 2
  { low := (4 * mantissa - below) * unit
    value := 4 * mantissa * unit
    high := (4 * mantissa + 2) * unit
    den := den
    closed := mantissa % 2 == 0 }

namespace Interval

def holds (i : Interval) (digits : Nat) (exponent : Int) : Bool :=
  let n := digits * Nat.pow 10 exponent.toNat * i.den
  let scale := Nat.pow 10 (-exponent).toNat
  if i.closed then i.low * scale ≤ n && n ≤ i.high * scale
  else i.low * scale < n && n < i.high * scale

/-- The multiple of `10 ^ exponent` nearest to the number if it rounds to the
number, else the one on the other side if that does. Of two equally near ones
the greater counts as nearest. -/
def onGrid? (i : Interval) (exponent : Int) : Option Nat :=
  let num := i.value * Nat.pow 10 (-exponent).toNat
  let den := i.den * Nat.pow 10 exponent.toNat
  let below := num / den
  let nearer := if den ≤ 2 * (num % den) then below + 1 else below
  let farther := if den ≤ 2 * (num % den) then below else below + 1
  if i.holds nearer exponent then some nearer
  else if i.holds farther exponent then some farther
  else none

def leading (i : Interval) : Int :=
  if i.den ≤ i.value then (Nat.toDigits 10 (i.value / i.den)).length - 1
  else -((Nat.toDigits 10 ((i.den + i.value - 1) / i.value - 1)).length : Int)

end Interval

/-- The digits and the exponent of the shortest decimal of a positive number.
Seventeen digits are always enough. -/
def shortest (mantissa : Nat) (exponent : Int) : Nat × Int :=
  let i := interval mantissa exponent
  let found := (List.range 17).findSome? fun (n : Nat) =>
    let grid := i.leading - (n : Int)
    (i.onGrid? grid).map (·, grid)
  found.getD (i.value * Nat.pow 10 i.den.log2 / i.den, -i.den.log2)

def text : Binary64 → String
  | .nan => "NaN"
  | .infinite negative => if negative then "-inf" else "inf"
  | .finite negative mantissa exponent =>
    let sign := if negative then "-" else ""
    if mantissa = 0 then sign ++ "0"
    else
      let (digits, e) := shortest mantissa exponent
      sign ++ Decimal.positional digits e

end ScgiStub.Binary64
