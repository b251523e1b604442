import ScgiStub.Duration

/-! # Settings of the server -/

namespace ScgiStub

structure Settings where
  socketPath : String := "./run/scgi_test.sock"
  /-- The most bytes taken from a connection at a time. -/
  bufferSize : Nat := 4096
  maxHeaderSize : Nat := 8192
  maxBodySize : Nat := 1048576
  requireScgiHeader : Bool := true
  /-- How long a client may keep silent. -/
  readTimeout : Duration := .ofSeconds 5
  sleepUnit : Duration := .ofSeconds 1
  serverName : String := "scgi-fixture/0.1"
  deriving DecidableEq, Repr, Inhabited

end ScgiStub
