import ScgiStub.Status
import ScgiStub.Text.Utf8

/-! # Replies

What the server writes back: a status line and a body, or bytes that keep to no
form at all.
-/

namespace ScgiStub

inductive Reply where
  | status (status : Status) (info : String) (body : Bytes)
  | raw (bytes : Bytes)
  deriving DecidableEq, Repr

namespace Reply

def page (text : String) : Reply :=
  .status .success "text/plain" (Utf8.encode text)

def line (status : Status) (info : String) : Reply :=
  .status status info []

def wire : Reply → Bytes
  | .status s info body => Utf8.encode s!"{s.code} {info}\r\n" ++ body
  | .raw bytes => bytes

end Reply

end ScgiStub
