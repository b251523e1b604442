import ScgiStub.Environment
import ScgiStub.Text.Numeral

/-! # Requests

What a client asks: the environment from the header block, and the body.
-/

namespace ScgiStub

structure Request where
  env : Environment := ∅
  body : Bytes := []
  deriving DecidableEq, Inhabited

namespace Request

/-- The size the body is to have, if the environment declares one. -/
def contentLength? (r : Request) : Option Nat :=
  (r.env.get? HeaderName.contentLength).bind fun value => Numeral.readSigned? (Utf8.encode value)

/-- The path, if the client sent one; an empty path is a path. -/
def path? (r : Request) : Option String :=
  r.env.get? HeaderName.pathInfo

end Request

end ScgiStub
