import ScgiStub.Decimal.Binary64
import ScgiStub.Decimal.Positional

/-! # Spans of time

Spans are counted in nanoseconds and end below `2 ^ 64` seconds.
-/

namespace ScgiStub

structure Duration where
  nanoseconds : Nat
  deriving DecidableEq, Repr, Inhabited

namespace Duration

def perSecond : Nat := 1000000000

/-- No span is as long as this. -/
def bound : Nat := UInt64.size * perSecond

def ofSeconds (n : Nat) : Duration :=
  ⟨n * perSecond⟩

def ofMilliseconds (n : Nat) : Duration :=
  ⟨n * 1000000⟩

def seconds (d : Duration) : Nat :=
  d.nanoseconds / perSecond

def subseconds (d : Duration) : Nat :=
  d.nanoseconds % perSecond

/-- The span `n` times over, unless that is too long for a span. -/
def times? (d : Duration) (n : Nat) : Option Duration :=
  if d.nanoseconds * n < bound then some ⟨d.nanoseconds * n⟩ else none

inductive Unfit where
  | negative
  | tooBigOrNan
  deriving DecidableEq, Repr

def Unfit.message : Unfit → String
  | .negative => "cannot convert float seconds to Duration: value is negative"
  | .tooBigOrNan => "cannot convert float seconds to Duration: value is either too big or NaN"

/-- The span of so many seconds, to the nearest nanosecond. -/
def ofBinary64 : Binary64 → Except Unfit Duration
  | .nan | .infinite false => .error .tooBigOrNan
  | .infinite true => .error .negative
  | .finite negative mantissa exponent =>
    if negative ∧ mantissa ≠ 0 then .error .negative
    else
      let (num, den) := Decimal.scaled (mantissa * perSecond) exponent
      let n := Decimal.roundDiv num den
      if n < bound then .ok ⟨n⟩ else .error .tooBigOrNan

/-- The span in the greatest unit that it fills at least once. -/
def text (d : Duration) : String :=
  let n := d.nanoseconds
  if 1000000000 ≤ n then s!"{n / 1000000000}{Decimal.fraction 9 (n % 1000000000)}s"
  else if 1000000 ≤ n then s!"{n / 1000000}{Decimal.fraction 6 (n % 1000000)}ms"
  else if 1000 ≤ n then s!"{n / 1000}{Decimal.fraction 3 (n % 1000)}µs"
  else s!"{n}ns"

end Duration

end ScgiStub
