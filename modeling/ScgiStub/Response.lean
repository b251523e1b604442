import ScgiStub.Status
import ScgiStub.Text.Numeral
import ScgiStub.Text.Quoted

/-! # Responses

What a client makes of the bytes it got. The line up to the first CR LF holds
the code, and after one space the text that explains it; the rest is the body.
-/

namespace ScgiStub

structure Response where
  code : Nat
  info : String
  body : Bytes
  deriving DecidableEq, Repr

namespace Response

inductive Fault where
  | empty
  | missingCrlf
  | notText
  | invalidStatus (code : String)
  | infoTooLong (size : Nat)
  deriving DecidableEq, Repr

def Fault.message : Fault → String
  | .empty => "response is empty"
  | .missingCrlf => "status line is not terminated by CRLF"
  | .notText => "status line is not UTF-8"
  | .invalidStatus code => s!"invalid status code {Quoted.quote code}"
  | .infoTooLong size => s!"meta of {size} bytes is too long"

/-- The text after the code takes no more bytes than this. -/
def maxInfoSize : Nat := 1024

/-- The bytes before the first CR LF, and those after it. -/
def splitLine? : Bytes → Option (Bytes × Bytes)
  | 0x0D :: 0x0A :: rest => some ([], rest)
  | b :: bs => (splitLine? bs).map fun (line, rest) => (b :: line, rest)
  | [] => none

def splitWord (line : String) : String × String :=
  let cs := line.toList
  (String.ofList (cs.takeWhile (· ≠ ' ')), String.ofList (cs.dropWhile (· ≠ ' ')).tail)

def readCode? (code : String) : Option Nat :=
  let digits := Utf8.encode code
  if digits.length = 2 then Numeral.read? digits else none

def ofBytes (bs : Bytes) : Except Fault Response :=
  if bs = [] then .error .empty
  else
    match splitLine? bs with
    | none => .error .missingCrlf
    | some (line, body) =>
      match Utf8.decode line with
      | .error _ => .error .notText
      | .ok line =>
        let (code, info) := splitWord line
        match readCode? code with
        | none => .error (.invalidStatus code)
        | some n =>
          if maxInfoSize < info.utf8ByteSize then .error (.infoTooLong info.utf8ByteSize)
          else .ok ⟨n, info, body⟩

def status? (r : Response) : Option Status :=
  Status.ofCode? r.code

end Response

end ScgiStub
