import ScgiStub.Status
import ScgiStub.Text.Utf8

/-! # Routes

Every path that the server knows has one canned behaviour, which lets a client
try what a backend may do to it.
-/

namespace ScgiStub

inductive Canned where
  | echo
  | line (status : Status) (info : String)
  | raw (bytes : Bytes)
  | sleep (units : Nat)
  | clientAuth
  | other
  deriving DecidableEq, Repr

namespace Canned

def routes : List (String × Canned) :=
  [("", echo),
    ("/test_redirect", line .permanentRedirect "/redirect/to"),
    ("/test_cgi_error", line .cgiError "Testing SCGI error"),
    ("/test_need_cert", line .clientCertificateRequired "SCGI says you need a cert"),
    ("/test_bad_cert", line .certificateNotAuthorised "SCGI says bad cert"),
    ("/test_server_error", line .notFound "SCGI says error"),
    ("/test_actual_scgi_error_1", raw (Utf8.encode "egsfea3d\r\n")),
    ("/test_actual_scgi_error_2", raw (Utf8.encode "\r\n")),
    ("/test_actual_scgi_error_3", raw []),
    ("/test_sleep_5", sleep 5),
    ("/test_sleep_15", sleep 15),
    ("/client_auth", clientAuth)]

/-- The behaviour for a path. No path at all is not the empty path. -/
def ofPath (path? : Option String) : Canned :=
  (path?.bind fun path => routes.lookup path).getD other

end Canned

end ScgiStub
