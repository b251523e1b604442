import ScgiStub.Toml.Scan

/-! # Strings and keys

Strings in double quotes have escapes, strings in single quotes have none. Three
quotes open a string that may go over lines.
-/

namespace ScgiStub.Toml

def hexDigit? (c : Char) : Option Nat :=
  if '0' ≤ c ∧ c ≤ '9' then some (c.toNat - '0'.toNat)
  else if 'a' ≤ c ∧ c ≤ 'f' then some (c.toNat - 'a'.toNat + 10)
  else if 'A' ≤ c ∧ c ≤ 'F' then some (c.toNat - 'A'.toNat + 10)
  else none

def characterCode (digits : Nat) : Scan Char := fun cs =>
  if cs.length < digits then none
  else do
    let code ← (cs.take digits).foldlM (fun n c => (16 * n + ·) <$> hexDigit? c) 0
    if code.isValidChar then return (Char.ofNat code, cs.drop digits) else none

/-- What a backslash and the text after it stand for. -/
def escape : Scan Char
  | 'b' :: cs => some ('\x08', cs)
  | 't' :: cs => some ('\t', cs)
  | 'n' :: cs => some ('\n', cs)
  | 'f' :: cs => some ('\x0c', cs)
  | 'r' :: cs => some ('\r', cs)
  | 'e' :: cs => some ('\x1b', cs)
  | '"' :: cs => some ('"', cs)
  | '\\' :: cs => some ('\\', cs)
  | 'x' :: cs => characterCode 2 cs
  | 'u' :: cs => characterCode 4 cs
  | 'U' :: cs => characterCode 8 cs
  | _ => none

def plainText (stops : List Char) : Scan String := fun cs =>
  let inside c := isPlain c && c ∉ stops
  some (String.ofList (cs.takeWhile inside), cs.dropWhile inside)

def basic : Scan String :=
  Scan.repeat (fun text cs =>
    match cs with
    | '"' :: rest => some (.inr text, rest)
    | '\\' :: rest => do
      let (c, rest) ← escape rest
      return (.inl (text.push c), rest)
    | cs => do
      let (more, rest) ← plainText ['"', '\\'] cs
      return (.inl (text ++ more), rest)) ""

def literal : Scan String := fun cs => do
  let (text, rest) ← plainText ['\x27'] cs
  match rest with
  | '\x27' :: rest => return (text, rest)
  | _ => none

/-- The end of a string in three quotes. Up to two quotes more belong to the
string. -/
def closing (quote : Char) : Scan String := fun cs =>
  let quotes := (cs.takeWhile (· = quote)).length
  if quotes < 3 then none
  else
    let more := min (quotes - 3) 2
    some (String.ofList (List.replicate more quote), cs.drop (more + 3))

/-- What a backslash in a string in three quotes stands for. At the end of a line
it takes away all space up to what comes next. -/
def lineEscape : Scan String := fun cs =>
  match afterNewline? (skipBlanks cs) with
  | some rest => some ("", skipSpace rest)
  | none => do
    let (c, rest) ← escape cs
    return (c.toString, rest)

def multiLineBit (quote : Char) (escapes : Bool) : Scan String
  | '\n' :: rest => some ("\n", rest)
  | '\r' :: '\n' :: rest => some ("\r\n", rest)
  | [] => none
  | c :: rest =>
    if c = quote then some (c.toString, rest)
    else if c = '\\' ∧ escapes then lineEscape rest
    else plainText (if escapes then [quote, '\\'] else [quote]) (c :: rest)

/-- The rest of a string in three quotes. A line end right after them does not
count. -/
def multiLine (quote : Char) (escapes : Bool) : Scan String := fun cs =>
  Scan.repeat (fun text cs =>
    match closing quote cs with
    | some (more, rest) => some (.inr (text ++ more), rest)
    | none => do
      let (more, rest) ← multiLineBit quote escapes cs
      return (.inl (text ++ more), rest)) "" ((afterNewline? cs).getD cs)

def string : Scan String
  | '"' :: '"' :: '"' :: cs => multiLine '"' true cs
  | '\x27' :: '\x27' :: '\x27' :: cs => multiLine '\x27' false cs
  | '"' :: cs => basic cs
  | '\x27' :: cs => literal cs
  | _ => none

def isBare (c : Char) : Bool :=
  c.isAlphanum || c = '_' || c = '-'

def simpleKey : Scan String
  | '"' :: cs => basic cs
  | '\x27' :: cs => literal cs
  | cs =>
    match cs.takeWhile isBare with
    | [] => none
    | name => some (String.ofList name, cs.dropWhile isBare)

/-- Nothing is nested deeper than this. -/
def maxDepth : Nat := 80

/-- A key, as the names before its last dot and the name after it, and the
blanks behind it. -/
def key : Scan (List String × String) :=
  Scan.repeat (fun path cs =>
    match simpleKey cs with
    | none => none
    | some (name, rest) =>
      match skipBlanks rest with
      | '.' :: rest => some (.inl (path ++ [name]), skipBlanks rest)
      | rest => if path.length < maxDepth then some (.inr (path, name), rest) else none) []

end ScgiStub.Toml
