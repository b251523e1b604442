import ScgiStub.Connection

/-! # Several clients at once

Clients connect under names and act in any order. Each has a connection of its
own. Only receiving takes time, and that passes for all: the server gives up a
client that has kept silent for too long.
-/

namespace ScgiStub

inductive Act where
  | connect
  | send (bytes : Bytes)
  | finish
  | receive
  deriving DecidableEq, Repr

/-- A client as the server sees it. -/
structure Client where
  stage : Connection.Stage
  /-- When the server last heard of it. -/
  since : Moment
  sending : Bool := true
  served : Bool := false
  deriving DecidableEq

namespace Client

def fresh (s : Settings) (now : Moment) : Client :=
  { stage := .start s, since := now }

/-- A client without a connection. -/
def absent (s : Settings) : Client :=
  { fresh s ⟨0⟩ with sending := false, served := true }

/-- Whether the server still waits for what the client sends. -/
def awaited (s : Settings) (now : Moment) (c : Client) : Bool :=
  match c.stage with
  | .waiting _ => c.sending && !c.served && decide (now ≤ c.since.plus s.readTimeout)
  | _ => false

/-- When the server closes the connection if nothing more is sent. -/
def closing (s : Settings) (c : Client) : Moment :=
  match c.stage.deferred? s c.since with
  | some deferred => c.since.plus deferred.wait
  | none => if c.sending && s.bufferSize != 0 then c.since.plus s.readTimeout else c.since

def finished (s : Settings) (now : Moment) (c : Client) : Act → Moment
  | .receive => if c.served then now else now.later (c.closing s)
  | _ => now

def act (s : Settings) (now : Moment) (c : Client) : Act → Client × Option Bytes
  | .connect => (fresh s now, none)
  | .send bytes =>
    if bytes ≠ [] ∧ c.awaited s now then
      let chunks := Connection.cut s.bufferSize bytes
      ({ c with stage := chunks.foldl (Connection.Stage.step s) c.stage, since := now }, none)
    else (c, none)
  | .finish => ({ c with sending := false }, none)
  | .receive =>
    let reply? := if c.served then none else c.stage.reply? s c.since
    ({ c with served := true }, some ((reply?.map Reply.wire).getD []))

end Client

/-- An act that is over: whose it was, when, and what it brought. -/
structure Deed where
  client : String
  act : Act
  time : Moment
  received : Option Bytes
  deriving DecidableEq, Repr

namespace Traffic

abbrev State := String → Client

def start (s : Settings) : State :=
  fun _ => .absent s

def State.set (state : State) (name : String) (c : Client) : State :=
  fun other => if other = name then c else state other

/-- What happens if each act begins when the one before is over. -/
def deeds (s : Settings) (now : Moment) (state : State) : List (String × Act) → List Deed
  | [] => []
  | (name, act) :: acts =>
    let time := (state name).finished s now act
    let (c, received) := (state name).act s now act
    { client := name, act, time, received } :: deeds s time (state.set name c) acts

def run (s : Settings) (now : Moment) (state : State) (acts : List (String × Act)) :
    List (Option Bytes) :=
  (deeds s now state acts).map Deed.received

end Traffic

end ScgiStub
