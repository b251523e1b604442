import ScgiStub.Toml.DateTime
import ScgiStub.Toml.Number
import ScgiStub.Toml.Text

/-! # Documents

A document is a row of lines: keys with values, and headers that say which table
the keys after them belong to.
-/

namespace ScgiStub.Toml

def inWord (c : Char) : Bool :=
  c ∉ [' ', '\t', '\n', '\r', ',', '[', ']', '{', '}', '=', '"', '\x27', '#']

/-- The characters up to the next that ends a word. A space does not end a date
if a time comes next. -/
def word (cs : List Char) : List Char × List Char :=
  let first := cs.takeWhile inWord
  match cs.dropWhile inWord with
  | ' ' :: c :: rest =>
    if DateTime.isDate first ∧ c.isDigit then
      (first ++ ' ' :: (c :: rest).takeWhile inWord, (c :: rest).dropWhile inWord)
    else (first, ' ' :: c :: rest)
  | rest => (first, rest)

def ofWord? (word : List Char) : Option Value :=
  if word = ['t', 'r', 'u', 'e'] then some (.boolean true)
  else if word = ['f', 'a', 'l', 's', 'e'] then some (.boolean false)
  else if DateTime.isDateTime word then some .dateTime
  else (.integer <$> integer? word) <|> float? word

def scalar : Scan Value
  | '"' :: cs => (string ('"' :: cs)).map fun (text, rest) => (.string text, rest)
  | '\x27' :: cs => (string ('\x27' :: cs)).map fun (text, rest) => (.string text, rest)
  | cs => (ofWord? (word cs).1).map fun value => (value, (word cs).2)

/-- The rest of an array. A comma may follow its last value. -/
def array (item : Scan Value) : Scan Value :=
  Scan.repeat (fun values cs =>
    match skipLines cs with
    | ']' :: rest => some (.inr (.array values), rest)
    | cs => do
      let (value, rest) ← item cs
      match skipLines rest with
      | ',' :: rest => return (.inl (values ++ [value]), rest)
      | ']' :: rest => return (.inr (.array (values ++ [value])), rest)
      | _ => none) []

structure Definition where
  path : List String
  name : String
  value : Value

/-- A key, the sign after it and its value, with what `skip` passes over on
either side of the sign. -/
def definition (skip : List Char → List Char) (item : Scan Value) : Scan Definition :=
  fun cs => do
    let ((path, name), rest) ← key cs
    match skip rest with
    | '=' :: rest =>
      let (value, rest) ← item (skip rest)
      return (⟨path, name, value⟩, rest)
    | _ => none

def Definition.addTo? (d : Definition) (table : Table) : Option Table :=
  table.define d.path d.name d.value

/-- The rest of a table in braces. A comma may follow its last value, and a line
may end wherever a blank may stand but in a key. -/
def inlineTable (item : Scan Value) : Scan Value :=
  Scan.repeat (fun table cs =>
    match skipLines cs with
    | '}' :: rest => some (.inr (.table { table with origin := .inline }), rest)
    | cs => do
      let (definition, rest) ← definition skipLines item cs
      let table ← definition.addTo? table
      match skipLines rest with
      | ',' :: rest => return (.inl table, rest)
      | '}' :: rest => return (.inr (.table { table with origin := .inline }), rest)
      | _ => none) (.empty .header)

/-- A value that is nested no deeper than this. -/
def value : Nat → Scan Value
  | 0 => scalar
  | depth + 1 => fun cs =>
    match cs with
    | '[' :: rest => array (value depth) rest
    | '{' :: rest => inlineTable (value depth) rest
    | cs => scalar cs

structure Draft where
  root : Table
  path : List String

def header (d : Draft) : Scan Draft := fun cs => do
  let ((path, name), rest) ← key (skipBlanks cs)
  match rest with
  | ']' :: rest => return (⟨← d.root.openTable path name, path ++ [name]⟩, rest)
  | _ => none

def rowHeader (d : Draft) : Scan Draft := fun cs => do
  let ((path, name), rest) ← key (skipBlanks cs)
  match rest with
  | ']' :: ']' :: rest => return (⟨← d.root.openRow path name, path ++ [name]⟩, rest)
  | _ => none

def line (d : Draft) : Scan Draft
  | '[' :: '[' :: rest => rowHeader d rest
  | '[' :: rest => header d rest
  | cs => do
    let (definition, rest) ← definition skipBlanks (value maxDepth) cs
    return ({ d with root := ← d.root.edit false definition.addTo? d.path }, rest)

/-- The table that a document describes. A byte order mark at its start does not
count. -/
def document? (text : String) : Option Table :=
  let cs := match text.toList with
    | '\uFEFF' :: cs => cs
    | cs => cs
  (·.1) <$> Scan.repeat (fun d cs =>
    match skipLines cs with
    | [] => some (.inr d.root, [])
    | cs => do
      let (d, rest) ← line d cs
      return (.inl d, ← endLine? rest)) (⟨.empty .header, []⟩ : Draft) cs

end ScgiStub.Toml
