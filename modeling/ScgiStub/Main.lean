import ScgiStub.CommandLine.Exit
import ScgiStub.Connection

/-! # The program

The server talks to one client over its standard streams, which is how a
super-server hands a connection on. A probe talks to what it can open at its
path.
-/

namespace ScgiStub

def Exit.leave (e : Exit) : IO UInt32 := do
  IO.print e.output
  return e.code.toUInt32

def readFile? (path : String) : IO (Option Bytes) := do
  try
    return some (← IO.FS.readBinFile path).toList
  catch _ =>
    return none

/-- Reads byte by byte until the request is decided or the client stops. -/
partial def readRequest (s : Settings) (input : IO.FS.Stream) :
    Connection.Stage → IO Connection.Stage
  | .waiting reader => do
    let chunk ← input.read (if s.bufferSize = 0 then 0 else 1)
    if chunk.isEmpty then return .waiting reader
    else readRequest s input (Connection.Stage.step s (.waiting reader) chunk.toList)
  | stage => return stage

partial def sleepUntil (time : Moment) : IO Unit := do
  let left := time.nanoseconds - (← IO.monoNanosNow)
  if 0 < left then
    IO.sleep (min (left / 1000000) 1000000000).toNat.toUInt32
    sleepUntil time

def Serve.run (how : Serve) : IO UInt32 := do
  let file ← match how.config? with
    | some path => readFile? path
    | none => pure none
  let s := how.settings file
  let stage ← readRequest s (← IO.getStdin) (.start s)
  let now : Moment := ⟨← IO.monoNanosNow⟩
  if let some deferred := stage.deferred? s now then
    sleepUntil (now.plus deferred.wait)
    let output ← IO.getStdout
    output.write (ByteArray.mk deferred.reply.wire.toArray)
    output.flush
  return 0

def Probe.run (p : Probe) : IO UInt32 := do
  match p.request with
  | .error failure =>
    IO.eprintln failure.message
    (exit (.error failure)).leave
  | .ok request =>
    let handle ← IO.FS.Handle.mk p.socket .readWrite
    handle.write (ByteArray.mk request.toArray)
    handle.flush
    (exit (.ok (← handle.readBinToEnd).toList)).leave

end ScgiStub

def main (arguments : List String) : IO UInt32 := do
  match ScgiStub.CommandLine.command? arguments with
  | .error stop => stop.exit.leave
  | .ok none => ScgiStub.Serve.run {}
  | .ok (some (.serve how)) => how.run
  | .ok (some (.probe what)) => what.run
