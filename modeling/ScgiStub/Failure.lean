import ScgiStub.Request.Encoder
import ScgiStub.Response
import ScgiStub.SocketPath

/-! # Failures of a command -/

namespace ScgiStub

inductive ClientFault where
  | system (path : String) (fault : SystemFault)
  | unsendable (cause : Request.Unsendable)
  deriving DecidableEq, Repr

def ClientFault.message : ClientFault → String
  | .system path fault => s!"I/O error talking to {path}: {fault.message}"
  | .unsendable cause => cause.message

inductive Failure where
  | system (fault : SystemFault)
  | notASocket (path : String)
  | client (fault : ClientFault)
  | response (fault : Response.Fault)
  | envArgument (entry : String)
  deriving DecidableEq, Repr

def Failure.message : Failure → String
  | .system fault => s!"IO error: {fault.message}"
  | .notASocket path => s!"{path} exists and is not a socket"
  | .client fault => s!"Client error: {fault.message}"
  | .response fault => s!"Invalid response: {fault.message}"
  | .envArgument entry => s!"Invalid --env value {Quoted.quote entry}, expected KEY=VALUE"

namespace SocketPath

/-- Binds the server's socket. A socket that an earlier run left behind gives
way; nothing else does. -/
def claim (path : String) : FileTree.Change Failure Unit := do
  match (← get).status path with
  | .error .notFound => pure ()
  | .error fault => throw (.system fault)
  | .ok (location, .socket) => modify (·.erase location)
  | .ok _ => throw (.notASocket path)
  ExceptT.adapt .system do
    makeParents path
    bind path

end SocketPath

end ScgiStub
