import ScgiStub.Clock
import ScgiStub.Reply
import ScgiStub.Request
import ScgiStub.Route
import ScgiStub.Settings

/-! # Answers

Every request gets a reply: a behaviour that cannot be carried out is answered
with an error status.
-/

namespace ScgiStub

inductive Obstacle where
  | missingVariable (name : String)
  | sleepOutOfRange (units : Nat) (unit : Duration)
  deriving DecidableEq, Repr

namespace Obstacle

def message : Obstacle → String
  | .missingVariable name => s!"missing environment key {name}"
  | .sleepOutOfRange units unit => s!"sleep of {units} units of {unit.text} is out of range"

def reply (o : Obstacle) : Reply :=
  .line .cgiError o.message

end Obstacle

/-- A reply, and how long a request has to wait for it. -/
structure Deferred where
  reply : Reply
  wait : Duration := ⟨0⟩
  deriving DecidableEq, Repr

namespace Canned

/-- The clock ends before this many seconds. -/
def clockBound : Nat := Nat.pow 2 63

/-- The time that so many units take, if a clock that shows `now` can tell when
it is over. -/
def sleepTime? (now : Moment) (unit : Duration) (units : Nat) : Option Duration :=
  (unit.times? units).filter fun total =>
    now.nanoseconds + total.nanoseconds < clockBound * Duration.perSecond

def perform (c : Canned) (now : Moment) (unit : Duration) (request : Request) :
    Except Obstacle Deferred :=
  match c with
  | echo => .ok { reply := .page request.env.text }
  | line status info => .ok { reply := .line status info }
  | raw bytes => .ok { reply := .raw bytes }
  | sleep units =>
    match sleepTime? now unit units with
    | some total => .ok { reply := .page s!"slept {units}\n", wait := total }
    | none => .error (.sleepOutOfRange units unit)
  | clientAuth =>
    match request.env.get? HeaderName.clientHash with
    | some hash => .ok { reply := .page s!"{hash}\n" }
    | none => .error (.missingVariable HeaderName.clientHash)
  | other => .ok { reply := .page "some other path received\n" }

end Canned

def handle (s : Settings) (now : Moment) (request : Request) : Deferred :=
  match (Canned.ofPath request.path?).perform now s.sleepUnit request with
  | .ok deferred => deferred
  | .error obstacle => { reply := obstacle.reply }

def answer (s : Settings) (now : Moment) (request : Request) : Reply :=
  (handle s now request).reply

end ScgiStub
