import ScgiStub.Decimal.Binary64

/-! # Tables

A document is a table of values. A table remembers how it came about, because
that decides who may still add to it: a header may open a table that only other
headers implied, dotted keys may add to tables that dotted keys made, and what
stands in braces is closed.
-/

namespace ScgiStub.Toml

/-- How a table came about. -/
inductive Origin where
  | header
  | implied
  | dotted
  | inline
  deriving DecidableEq, Repr

mutual

inductive Value where
  | string (text : String)
  | integer (n : Int)
  | float (x : Binary64)
  | hugeFloat
  | boolean (b : Bool)
  | dateTime
  | array (values : List Value)
  | table (table : Table)
  | tables (rows : List Table)

structure Table where
  origin : Origin
  entries : List (String × Value)

end

namespace Table

def empty (origin : Origin) : Table :=
  ⟨origin, []⟩

def get? (t : Table) (name : String) : Option Value :=
  t.entries.lookup name

def insertEntry (name : String) (value : Value) :
    List (String × Value) → List (String × Value)
  | [] => [(name, value)]
  | (n, v) :: entries =>
    if n = name then (n, value) :: entries else (n, v) :: insertEntry name value entries

def insert (t : Table) (name : String) (value : Value) : Table :=
  { t with entries := insertEntry name value t.entries }

def add? (t : Table) (name : String) (value : Value) : Option Table :=
  if (t.get? name).isSome then none else some (t.insert name value)

/-- Whether a path may lead through a table. Dotted keys only lead through
tables without a header. -/
def passable (dotted : Bool) : Origin → Bool
  | .implied | .dotted => true
  | .header => !dotted
  | .inline => false

/-- Edits the table at the end of a path. Tables missing on the way are made; an
array of tables stands for its last one. -/
def edit (dotted : Bool) (f : Table → Option Table) : List String → Table → Option Table
  | [], t => f t
  | name :: path, t =>
    match t.get? name with
    | none => do
      let made ← edit dotted f path (empty (if dotted then .dotted else .implied))
      return t.insert name (.table made)
    | some (.table inner) =>
      if passable dotted inner.origin then do
        return t.insert name (.table (← edit dotted f path inner))
      else none
    | some (.tables rows) =>
      match rows.getLast? with
      | none => none
      | some last => do
        return t.insert name (.tables (rows.dropLast ++ [← edit dotted f path last]))
    | some _ => none

/-- Defines a key of one or more parts. A key with dots ends in a table that
dotted keys made, a key without dots in one that they did not make. -/
def define (t : Table) (path : List String) (name : String) (value : Value) : Option Table :=
  t.edit true
    (fun inner => if inner.origin = .dotted ↔ path ≠ [] then inner.add? name value else none)
    path

def openTable (t : Table) (path : List String) (name : String) : Option Table :=
  t.edit false
    (fun parent =>
      match parent.get? name with
      | none => some (parent.insert name (.table (empty .header)))
      | some (.table inner) =>
        if inner.origin = .implied then
          some (parent.insert name (.table { inner with origin := .header }))
        else none
      | some _ => none)
    path

def openRow (t : Table) (path : List String) (name : String) : Option Table :=
  t.edit false
    (fun parent =>
      match parent.get? name with
      | none => some (parent.insert name (.tables [empty .header]))
      | some (.tables rows) => some (parent.insert name (.tables (rows ++ [empty .header])))
      | some _ => none)
    path

end Table

end ScgiStub.Toml
