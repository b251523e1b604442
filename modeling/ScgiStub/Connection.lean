import ScgiStub.Answer
import ScgiStub.Request.Admission
import ScgiStub.Request.Reader

/-! # One connection

The server reads until a request is complete or wrong, admits it between the
headers and the body, and writes one reply. A client that stops before its
request is complete gets nothing.
-/

namespace ScgiStub

namespace Connection

/-- Why a request gets no answer of its own. -/
inductive Rejection where
  | unreadable (fault : Reader.Fault)
  | refused (refusal : Refusal)
  deriving DecidableEq, Repr

def Rejection.message : Rejection → String
  | .unreadable fault => fault.message
  | .refused refusal => refusal.message

def Rejection.reply (r : Rejection) : Reply :=
  .line .badRequest r.message

/-- How far the reading has come. -/
inductive Stage where
  | waiting (reader : Reader)
  | accepted (request : Request)
  | rejected (rejection : Rejection)
  deriving DecidableEq

namespace Stage

def start (s : Settings) : Stage :=
  .waiting { limit := s.maxHeaderSize }

/-- Where the reading stands after a reader has said something. Once the headers
are complete, the request is admitted and the reader goes on with what it has. -/
def ofOutcome (s : Settings) : Reader.Outcome → Stage
  | (.error fault, _) => .rejected (.unreadable fault)
  | (.ok .incomplete, r) => .waiting r
  | (.ok .done, r) => .accepted r.request
  | (.ok .headersDone, r) =>
    match s.check r.request.env with
    | .error refusal => .rejected (.refused refusal)
    | .ok () =>
      match r.feed [] with
      | (.error fault, _) => .rejected (.unreadable fault)
      | (.ok .done, r) => .accepted r.request
      | (.ok .incomplete, r) | (.ok .headersDone, r) => .waiting r

def step (s : Settings) (stage : Stage) (chunk : Bytes) : Stage :=
  match stage with
  | .waiting r => ofOutcome s (r.feed chunk)
  | stage => stage

def run (s : Settings) (chunks : List Bytes) : Stage :=
  chunks.foldl (step s) (start s)

def deferred? (s : Settings) (now : Moment) : Stage → Option Deferred
  | .waiting _ => none
  | .accepted request => some (handle s now request)
  | .rejected rejection => some { reply := rejection.reply }

/-- The reply, if there is one, when the client sends nothing more. -/
def reply? (s : Settings) (now : Moment) (stage : Stage) : Option Reply :=
  (stage.deferred? s now).map Deferred.reply

end Stage

/-- Cuts bytes into pieces of `size` bytes, the last one possibly shorter. With
pieces of no size nothing is ever read. -/
def cut (size : Nat) (bs : Bytes) : List Bytes :=
  match size, bs with
  | 0, _ => []
  | _, [] => []
  | n + 1, b :: bs => (b :: bs.take n) :: cut (n + 1) (bs.drop n)
termination_by bs.length
decreasing_by simp only [List.length_drop, List.length_cons]; omega

def reply? (s : Settings) (now : Moment) (sent : Bytes) : Option Reply :=
  (Stage.run s (cut s.bufferSize sent)).reply? s now

/-- What the server writes to a client that sends these bytes and then stops. -/
def output (s : Settings) (now : Moment) (sent : Bytes) : Bytes :=
  match reply? s now sent with
  | some reply => reply.wire
  | none => []

end Connection

end ScgiStub
