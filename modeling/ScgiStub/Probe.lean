import ScgiStub.Failure

/-! # Probing a server

A probe sends one request and reports what came back.
-/

namespace ScgiStub

structure Probe where
  pathInfo : String
  socket : String := "./run/scgi_test.sock"
  /-- Further entries of the environment, each a name, `=` and a value. -/
  entries : List String := []
  body : String := ""
  timeout : Nat := 30
  deriving DecidableEq, Repr

inductive Peer where
  | absent (fault : SystemFault)
  | silent
  | answers (reply : Bytes → Bytes)

/-- The bytes that reached the other end, if any did, and what came of it. -/
structure Exchange where
  sent? : Option Bytes
  result : Except Failure Bytes

namespace Probe

def splitEntry? (entry : String) : Option (String × String) :=
  let cs := entry.toList
  match cs.takeWhile (· ≠ '='), cs.dropWhile (· ≠ '=') with
  | [], _ => none
  | _, [] => none
  | name, _ :: value => some (String.ofList name, String.ofList value)

/-- Adds entries in order; the first without a name or a `=` is an error. -/
def addEntries (env : Environment) : List String → Except Failure Environment
  | [] => .ok env
  | entry :: entries =>
    match splitEntry? entry with
    | none => .error (.envArgument entry)
    | some (name, value) => addEntries (env.insert name value) entries

def environment (p : Probe) : Except Failure Environment :=
  addEntries (.ofPairs [(HeaderName.scgi, "1"), (HeaderName.pathInfo, p.pathInfo)]) p.entries

def request (p : Probe) : Except Failure Bytes :=
  match p.environment with
  | .error failure => .error failure
  | .ok env => (Request.encode env (Utf8.encode p.body)).mapError (.client <| .unsendable ·)

/-- Sends the request. Without any time to wait, nothing gets through. -/
def send (p : Probe) (peer : Peer) : Exchange :=
  match p.request with
  | .error failure => ⟨none, .error failure⟩
  | .ok bytes =>
    let failed fault := Except.error (.client (.system p.socket fault))
    match peer with
    | .absent fault => ⟨none, failed fault⟩
    | .silent => ⟨none, failed .timedOut⟩
    | .answers reply =>
      if p.timeout = 0 then ⟨none, failed .timedOut⟩ else ⟨some bytes, .ok (reply bytes)⟩

def report (reply : Bytes) : String :=
  match Response.ofBytes reply with
  | .ok r =>
    s!"status: {r.code}\nmeta:   {r.info}\nbody:   {Quoted.quote (Utf8.decodeLossy r.body)}\n"
  | .error _ => s!"raw:    {Quoted.quote (Utf8.decodeLossy reply)}\n"

end Probe

end ScgiStub
