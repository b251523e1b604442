import ScgiStub.Settings
import ScgiStub.Decimal.Shortest
import ScgiStub.Text.Numeral
import ScgiStub.Text.Utf8
import ScgiStub.Toml.Document

/-! # Settings from a document

The names at the top of a document set what they name; other names are passed
over. Names are read in alphabetical order, and the first with a wrong value
decides why the document is refused.
-/

namespace ScgiStub.Toml

mutual

def Value.inRange : Value → Bool
  | .integer n => -2 ^ 127 ≤ n && n < 2 ^ 128
  | .hugeFloat => false
  | .array values => valuesInRange values
  | .table table => table.inRange
  | .tables rows => rowsInRange rows
  | .string _ | .float _ | .boolean _ | .dateTime => true

def valuesInRange : List Value → Bool
  | [] => true
  | value :: values => value.inRange && valuesInRange values

def entriesInRange : List (String × Value) → Bool
  | [] => true
  | (_, value) :: entries => value.inRange && entriesInRange entries

def rowsInRange : List Table → Bool
  | [] => true
  | row :: rows => row.inRange && rowsInRange rows

def Table.inRange : Table → Bool
  | ⟨_, entries⟩ => entriesInRange entries

end

end ScgiStub.Toml

namespace ScgiStub.Settings

open Toml (Value)

inductive Fault where
  /-- It is no document, or a value in it is of the wrong kind. -/
  | unreadable
  | duration (seconds : Binary64) (cause : Duration.Unfit)
  deriving DecidableEq, Repr

def Fault.message : Fault → String
  | .unreadable => "unreadable settings"
  | .duration seconds cause => s!"invalid duration of {seconds.text} seconds: {cause.message}"

def readText : Value → Except Fault String
  | .string text => .ok text
  | _ => .error .unreadable

def readFlag : Value → Except Fault Bool
  | .boolean b => .ok b
  | _ => .error .unreadable

def readSize : Value → Except Fault Nat
  | .integer n => if 0 ≤ n ∧ n < Numeral.bound then .ok n.toNat else .error .unreadable
  | _ => .error .unreadable

/-- A span in seconds. Whole numbers are rounded as fractions are. -/
def readDuration : Value → Except Fault Duration
  | .float x => (Duration.ofBinary64 x).mapError (.duration x)
  | .integer n =>
    if Int64.minValue.toInt ≤ n ∧ n < Numeral.bound then
      (Duration.ofBinary64 (.ofInt n)).mapError (.duration (.ofInt n))
    else .error .unreadable
  | _ => .error .unreadable

def assign (s : Settings) (name : String) (value : Value) : Except Fault Settings :=
  match name with
  | "buffer_size" => (readSize value).map fun n => { s with bufferSize := n }
  | "max_body_size" => (readSize value).map fun n => { s with maxBodySize := n }
  | "max_header_size" => (readSize value).map fun n => { s with maxHeaderSize := n }
  | "read_timeout" => (readDuration value).map fun d => { s with readTimeout := d }
  | "require_scgi_header" => (readFlag value).map fun b => { s with requireScgiHeader := b }
  | "server_name" => (readText value).map fun text => { s with serverName := text }
  | "sleep_unit" => (readDuration value).map fun d => { s with sleepUnit := d }
  | "socket_path" => (readText value).map fun text => { s with socketPath := text }
  | _ => if value.inRange then .ok s else .error .unreadable

/-- The default settings with what a document sets. -/
def ofDocument (text : String) : Except Fault Settings :=
  match Toml.document? text with
  | none => .error .unreadable
  | some table =>
    (table.entries.mergeSort fun a b => a.1 ≤ b.1).foldlM
      (fun s (name, value) => s.assign name value) {}

/-- The settings in a file, or the default ones if it is missing or refused. -/
def ofFile : Option Bytes → Settings
  | none => {}
  | some bytes =>
    match Utf8.decode bytes with
    | .error _ => {}
    | .ok text => (ofDocument text).toOption.getD {}

end ScgiStub.Settings
