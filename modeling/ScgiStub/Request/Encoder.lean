import ScgiStub.Request.HeaderBlock

/-! # Writing a request

The size of the body is the first header, and the client derives it. A NUL in a
name or a value is refused, since it would end the field too early.
-/

namespace ScgiStub.Request

inductive Unsendable where
  | contentLengthGiven
  | nulInEntry (name : String)
  deriving DecidableEq, Repr

def Unsendable.message : Unsendable → String
  | .contentLengthGiven => "environment must not set CONTENT_LENGTH itself"
  | .nulInEntry name => s!"NUL byte in environment entry {Quoted.quote name}"

def netstring (bs : Bytes) : Bytes :=
  Utf8.encode (toString bs.length) ++ 0x3A :: (bs ++ [0x2C])

/-- The headers of a request, in the order in which they are sent. -/
def headers (env : Environment) (body : Bytes) : List (String × String) :=
  (HeaderName.contentLength, toString body.length) :: env.entries

/-- Whether a NUL would end a field of this pair too early. -/
def holdsNul (pair : String × String) : Bool :=
  '\x00' ∈ pair.1.toList || '\x00' ∈ pair.2.toList

def encode (env : Environment) (body : Bytes) : Except Unsendable Bytes :=
  if env.contains HeaderName.contentLength then .error .contentLengthGiven
  else
    match (headers env body).find? holdsNul with
    | some (name, _) => .error (.nulInEntry name)
    | none => .ok (netstring (HeaderBlock.encode (headers env body)) ++ body)

end ScgiStub.Request
