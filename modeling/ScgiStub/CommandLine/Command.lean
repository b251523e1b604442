import ScgiStub.CommandLine.Grammar
import ScgiStub.Probe
import ScgiStub.Settings.Document

/-! # Commands

The program serves, or probes a server. A command line that names no command
serves with the default settings.
-/

namespace ScgiStub

structure Serve where
  config? : Option String := none
  /-- Goes before the path in the settings. -/
  socket? : Option String := none
  /-- Goes before the unit of sleep in the settings, in milliseconds. -/
  sleepUnit? : Option Nat := none
  deriving DecidableEq, Repr

/-- The settings to serve with. The file is what the command names. -/
def Serve.settings (s : Serve) (file : Option Bytes) : Settings :=
  let base := if s.config?.isSome then Settings.ofFile file else {}
  { base with
    socketPath := s.socket?.getD base.socketPath
    sleepUnit := (s.sleepUnit?.map .ofMilliseconds).getD base.sleepUnit }

inductive Command where
  | serve (how : Serve)
  | probe (what : Probe)
  deriving DecidableEq, Repr

namespace CommandLine

/-- Sets a parameter that may be given once. -/
def once {α : Type} (old : Option α) (new : Except Stop α) : Except Stop (Option α) :=
  if old.isSome then .error .repeatedOption else new.map some

def readPath (value : String) : Except Stop String :=
  if value = "" then .error .missingValue else .ok value

def readNumber (value : String) : Except Stop Nat :=
  match Numeral.readSigned? (Utf8.encode value) with
  | some n => .ok n
  | none => .error .malformedValue

inductive ServeParameter where
  | config
  | socket
  | sleepUnit
  deriving DecidableEq, Repr

def serving : Grammar ServeParameter Serve where
  name := "serve"
  option?
    | "config" => some .config
    | "socket" => some .socket
    | "sleep-unit-ms" => some .sleepUnit
    | _ => none
  positionals := []
  assign parameter value s := match parameter with
    | .config => return { s with config? := ← once s.config? (readPath value) }
    | .socket => return { s with socket? := ← once s.socket? (readPath value) }
    | .sleepUnit => return { s with sleepUnit? := ← once s.sleepUnit? (readNumber value) }

inductive ProbeParameter where
  | pathInfo
  | socket
  | entry
  | body
  | timeout
  deriving DecidableEq, Repr

/-- A probe of which not all may have been said yet. -/
structure ProbeDraft where
  pathInfo? : Option String := none
  socket? : Option String := none
  entries : List String := []
  body? : Option String := none
  timeout? : Option Nat := none
  deriving DecidableEq, Repr

def probing : Grammar ProbeParameter ProbeDraft where
  name := "probe"
  option?
    | "socket" => some .socket
    | "env" => some .entry
    | "body" => some .body
    | "timeout" => some .timeout
    | _ => none
  positionals := [.pathInfo]
  assign parameter value d := match parameter with
    | .pathInfo => return { d with pathInfo? := ← once d.pathInfo? (.ok value) }
    | .socket => return { d with socket? := ← once d.socket? (readPath value) }
    | .entry => return { d with entries := d.entries ++ [value] }
    | .body => return { d with body? := ← once d.body? (.ok value) }
    | .timeout => return { d with timeout? := ← once d.timeout? (readNumber value) }

def ProbeDraft.probe (d : ProbeDraft) : Except Stop Probe :=
  match d.pathInfo? with
  | none => .error .missingArgument
  | some pathInfo =>
    let p : Probe := { pathInfo, entries := d.entries }
    .ok { p with
      socket := d.socket?.getD p.socket
      body := d.body?.getD p.body
      timeout := d.timeout?.getD p.timeout }

def commandNames : List String := ["serve", "probe", "help"]

def helpOn : List String → Stop
  | [] => .help none
  | [name] => if name ∈ commandNames then .help name else .unknownCommand
  | _ => .unknownCommand

/-- The command that a command line names, if it names one. -/
def command? : List String → Except Stop (Option Command)
  | [] => .ok none
  | argument :: arguments =>
    match Word.ofArgument argument with
    | .separator =>
      match arguments with
      | [] => .ok none
      | name :: _ => .error (if name ∈ commandNames then .unknownArgument else .unknownCommand)
    | .short 'h' | .long "help" none => .error (.help none)
    | .short 'V' | .long "version" none => .error .version
    | .long "help" (some _) | .long "version" (some _) => .error .valueForFlag
    | .short _ | .long _ _ => .error .unknownArgument
    | .plain =>
      match argument with
      | "serve" => do
        return some (.serve (← serving.read {} .none serving.positionals arguments))
      | "probe" => do
        let draft ← probing.read {} .none probing.positionals arguments
        return some (.probe (← draft.probe))
      | "help" => .error (helpOn arguments)
      | _ => .error .unknownCommand

end CommandLine

end ScgiStub
