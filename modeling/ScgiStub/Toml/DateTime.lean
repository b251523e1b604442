/-! # Dates and times

A date, a time of day, or both with or without the distance from universal time.
Seconds may be left out, and may be 60 for a leap second.
-/

namespace ScgiStub.Toml.DateTime

/-- The number in so many digits at the front, and the text after it. -/
def number? (digits : Nat) (cs : List Char) : Option (Nat × List Char) :=
  let shown := cs.take digits
  if shown.length = digits ∧ shown.all Char.isDigit then
    some (shown.foldl (fun n c => 10 * n + (c.toNat - '0'.toNat)) 0, cs.drop digits)
  else none

def numberAfter? (sign : Char) (digits : Nat) : List Char → Option (Nat × List Char)
  | [] => none
  | c :: cs => if c = sign then number? digits cs else none

def isLeapYear (year : Nat) : Bool :=
  year % 4 = 0 && (year % 100 ≠ 0 || year % 400 = 0)

def daysInMonth (year month : Nat) : Nat :=
  if month = 2 then if isLeapYear year then 29 else 28
  else if month ∈ [4, 6, 9, 11] then 30
  else 31

def afterDate? (cs : List Char) : Option (List Char) := do
  let (year, cs) ← number? 4 cs
  let (month, cs) ← numberAfter? '-' 2 cs
  let (day, cs) ← numberAfter? '-' 2 cs
  if 1 ≤ month ∧ month ≤ 12 ∧ 1 ≤ day ∧ day ≤ daysInMonth year month then return cs else none

def afterFraction? : List Char → Option (List Char)
  | '.' :: cs =>
    match cs.takeWhile Char.isDigit with
    | [] => none
    | _ :: _ => some (cs.dropWhile Char.isDigit)
  | cs => some cs

def afterTime? (cs : List Char) : Option (List Char) := do
  let (hour, cs) ← number? 2 cs
  let (minute, cs) ← numberAfter? ':' 2 cs
  if 23 < hour ∨ 59 < minute then none
  else
    match numberAfter? ':' 2 cs with
    | none => return cs
    | some (second, cs) => if 60 < second then none else afterFraction? cs

/-- Whether a text says how far a time is from universal time. -/
def isOffset : List Char → Bool
  | ['Z'] | ['z'] => true
  | '+' :: cs | '-' :: cs =>
    match number? 2 cs with
    | none => false
    | some (hours, cs) =>
      match numberAfter? ':' 2 cs with
      | some (minutes, []) => hours ≤ 23 && minutes ≤ 59
      | _ => false
  | _ => false

def isDate (cs : List Char) : Bool :=
  afterDate? cs = some []

def isDateTime (cs : List Char) : Bool :=
  match afterDate? cs with
  | none => afterTime? cs = some []
  | some [] => true
  | some (c :: cs) =>
    (c = 'T' || c = 't' || c = ' ') &&
      match afterTime? cs with
      | none => false
      | some cs => cs = [] || isOffset cs

end ScgiStub.Toml.DateTime
