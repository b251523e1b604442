import ScgiStub.Request
import ScgiStub.Settings
import ScgiStub.Text.Quoted

/-! # Admission of a request

Whether a request may send its body is decided from its environment alone.
-/

namespace ScgiStub

inductive Refusal where
  | contentLengthNotFirst
  | malformedContentLength (value : String)
  | bodyTooLarge (size limit : Nat)
  | missingScgi
  | unsupportedVersion (version : String)
  deriving DecidableEq, Repr

def Refusal.message : Refusal → String
  | .contentLengthNotFirst => "CONTENT_LENGTH must be the first header"
  | .malformedContentLength value => s!"malformed CONTENT_LENGTH {Quoted.quote value}"
  | .bodyTooLarge size limit => s!"body of {size} bytes exceeds {limit}"
  | .missingScgi => "missing SCGI header"
  | .unsupportedVersion version => s!"unsupported SCGI version {Quoted.quote version}"

namespace Environment

/-- The size of the body comes first, in digits only, and within the limit. -/
def checkContentLength (env : Environment) (limit : Nat) : Except Refusal Unit :=
  match env.first? with
  | none => .error .contentLengthNotFirst
  | some (name, value) =>
    if name ≠ HeaderName.contentLength then .error .contentLengthNotFirst
    else
      match Numeral.read? (Utf8.encode value) with
      | none => .error (.malformedContentLength value)
      | some size => if limit < size then .error (.bodyTooLarge size limit) else .ok ()

def checkVersion (env : Environment) : Except Refusal Unit :=
  match env.get? HeaderName.scgi with
  | none => .error .missingScgi
  | some version => if version = "1" then .ok () else .error (.unsupportedVersion version)

end Environment

namespace Settings

def check (s : Settings) (env : Environment) : Except Refusal Unit :=
  match env.checkContentLength s.maxBodySize with
  | .error refusal => .error refusal
  | .ok () => if s.requireScgiHeader then env.checkVersion else .ok ()

end Settings

end ScgiStub
