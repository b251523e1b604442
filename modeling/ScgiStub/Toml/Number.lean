import ScgiStub.Toml.Table

/-! # Numbers

Digits may be grouped by single underscores between them. Whole numbers in
decimal have no leading zeros.
-/

namespace ScgiStub.Toml

def ungroup? (isDigit : Char → Bool) : List Char → Option (List Char)
  | [] => none
  | [c] => if isDigit c then some [c] else none
  | c :: '_' :: cs => if isDigit c then (c :: ·) <$> ungroup? isDigit cs else none
  | c :: cs => if isDigit c then (c :: ·) <$> ungroup? isDigit cs else none

def digitsValue (base : Nat) (digits : List Char) : Nat :=
  digits.foldl (fun n c =>
    base * n + if c.isDigit then c.toNat - '0'.toNat else c.toLower.toNat - 'a'.toNat + 10) 0

def isOctal (c : Char) : Bool :=
  '0' ≤ c && c ≤ '7'

def isBinary (c : Char) : Bool :=
  c = '0' || c = '1'

def isHex (c : Char) : Bool :=
  c.isDigit || ('a' ≤ c && c ≤ 'f') || ('A' ≤ c && c ≤ 'F')

/-- Digits in decimal without a leading zero. -/
def decimalDigits? (cs : List Char) : Option (List Char) :=
  match ungroup? Char.isDigit cs with
  | some ('0' :: _ :: _) => none
  | digits? => digits?

def integer? : List Char → Option Int
  | '0' :: 'x' :: cs => (digitsValue 16 · : _ → Int) <$> ungroup? isHex cs
  | '0' :: 'o' :: cs => (digitsValue 8 · : _ → Int) <$> ungroup? isOctal cs
  | '0' :: 'b' :: cs => (digitsValue 2 · : _ → Int) <$> ungroup? isBinary cs
  | '+' :: cs => (digitsValue 10 · : _ → Int) <$> decimalDigits? cs
  | '-' :: cs => (-digitsValue 10 · : _ → Int) <$> decimalDigits? cs
  | cs => (digitsValue 10 · : _ → Int) <$> decimalDigits? cs

def inRow (c : Char) : Bool :=
  c.isDigit || c = '_'

def exponent? : List Char → Option Int
  | '+' :: cs => (digitsValue 10 · : _ → Int) <$> ungroup? Char.isDigit cs
  | '-' :: cs => (-digitsValue 10 · : _ → Int) <$> ungroup? Char.isDigit cs
  | cs => (digitsValue 10 · : _ → Int) <$> ungroup? Char.isDigit cs

/-- A decimal without its sign, as digits and the power of ten they count. -/
def decimal? (cs : List Char) : Option (Nat × Int) := do
  let whole ← decimalDigits? (cs.takeWhile inRow)
  let (places, rest) ← match cs.dropWhile inRow with
    | '.' :: rest => do
      let places ← ungroup? Char.isDigit (rest.takeWhile inRow)
      pure (places, rest.dropWhile inRow)
    | rest => pure ([], rest)
  let exponent ← match rest with
    | [] => pure 0
    | 'e' :: rest | 'E' :: rest => exponent? rest
    | _ => none
  return (digitsValue 10 (whole ++ places), exponent - places.length)

def magnitude? (negative : Bool) : List Char → Option Value
  | ['i', 'n', 'f'] => some (.float (.infinite negative))
  | ['n', 'a', 'n'] => some (.float .nan)
  | cs => do
    let (digits, exponent) ← decimal? cs
    match Binary64.ofDecimal negative digits exponent with
    | .infinite _ => return .hugeFloat
    | x => return .float x

def float? : List Char → Option Value
  | '+' :: cs => magnitude? false cs
  | '-' :: cs => magnitude? true cs
  | cs => magnitude? false cs

end ScgiStub.Toml
