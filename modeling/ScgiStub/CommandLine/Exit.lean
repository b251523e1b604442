import ScgiStub.CommandLine.Command

/-! # How a run ends

A run prints its output and ends with a code: 0 if all went well, 1 if a command
failed, 2 if the command line names none that can run.
-/

namespace ScgiStub

structure Exit where
  code : Nat
  output : String := ""
  deriving DecidableEq, Repr

namespace CommandLine

def serveHelp : String :=
  "Serve the canned responses on a Unix socket

Usage: scgi-fixture serve [OPTIONS]

Options:
      --config <CONFIG>                TOML config file
      --socket <SOCKET>                Overrides `socket_path` from the config
      --sleep-unit-ms <SLEEP_UNIT_MS>  Overrides `sleep_unit` from the config
  -h, --help                           Print help
"

def probeHelp : String :=
  "Send one request to a running fixture and print the reply

Usage: scgi-fixture probe [OPTIONS] <PATH_INFO>

Arguments:
  <PATH_INFO>  Value sent as PATH_INFO

Options:
      --socket <SOCKET>    [default: ./run/scgi_test.sock]
      --env <KEY=VALUE>    Extra environment entries
      --body <BODY>        Request body [default: ]
      --timeout <TIMEOUT>  Seconds to wait for the whole exchange [default: 30]
  -h, --help               Print help
"

def helpHelp : String :=
  "Print this message or the help of the given subcommand(s)

Usage: scgi-fixture help [COMMAND]...

Arguments:
  [COMMAND]...  Print help for the subcommand(s)
"

def generalHelp : String :=
  "Usage: scgi-fixture [COMMAND]

Commands:
  serve  Serve the canned responses on a Unix socket
  probe  Send one request to a running fixture and print the reply
  help   Print this message or the help of the given subcommand(s)

Options:
  -h, --help     Print help
  -V, --version  Print version
"

def Stop.exit : Stop → Exit
  | .help (some "serve") => ⟨0, serveHelp⟩
  | .help (some "probe") => ⟨0, probeHelp⟩
  | .help (some "help") => ⟨0, helpHelp⟩
  | .help _ => ⟨0, generalHelp⟩
  | .version => ⟨0, "scgi-fixture 0.1.0\n"⟩
  | _ => { code := 2 }

end CommandLine

/-- The end of a probe, whether or not the reply is one that can be read. -/
def Probe.exit : Except Failure Bytes → Exit
  | .ok reply => ⟨0, report reply⟩
  | .error _ => { code := 1 }

/-- The end of a server that cannot have its path, or `none` if it gets to
serve. -/
def SocketPath.exit? (path : String) (t : FileTree) : Option Exit :=
  match (claim path t).1 with
  | .ok () => none
  | .error _ => some { code := 1 }

end ScgiStub
