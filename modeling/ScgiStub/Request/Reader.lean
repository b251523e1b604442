import ScgiStub.Request
import ScgiStub.Request.HeaderBlock

/-! # Reading a request piece by piece

A request is the size of the header block in decimal, a colon, the block, a
comma and the body. A reader takes bytes as they come, keeps what it cannot use
yet, and reports once that the headers are complete before it touches the body.
-/

namespace ScgiStub

/-- Where in a request the next byte belongs. -/
inductive Phase where
  | length
  | headers (size : Nat)
  | comma
  | body
  | done
  deriving DecidableEq, Repr

structure Reader where
  /-- The greatest size of a header block. -/
  limit : Nat
  phase : Phase := .length
  pending : Bytes := []
  request : Request := {}
  deriving DecidableEq

namespace Reader

inductive Fault where
  | invalidLength
  | lengthTooLong
  | headersTooLarge (size limit : Nat)
  | missingComma
  | headers (fault : HeaderBlock.Fault)
  | invalidContentLength
  deriving DecidableEq, Repr

def Fault.message : Fault → String
  | .invalidLength => "invalid netstring length"
  | .lengthTooLong => "netstring length has too many digits"
  | .headersTooLarge size limit => s!"header block of {size} bytes exceeds {limit}"
  | .missingComma => "header block not terminated by ','"
  | .headers fault => fault.message
  | .invalidContentLength => "invalid CONTENT_LENGTH"

/-- What a reader has to say after it took some bytes. -/
inductive Progress where
  | incomplete
  | headersDone
  | done
  deriving DecidableEq, Repr

abbrev Outcome := Except Fault Progress × Reader

/-- More digits than this are no size of a header block. -/
def maxDigits : Nat := 10

/-- The size in front of a header block with what follows the colon, or `none`
while the colon is still to come. -/
def scanLength (limit : Nat) (bs : Bytes) : Except Fault (Option (Nat × Bytes)) :=
  let digits := bs.takeWhile Numeral.isDigit
  if maxDigits < digits.length then .error .lengthTooLong
  else
    match bs.dropWhile Numeral.isDigit with
    | [] => .ok none
    | stop :: rest =>
      if digits = [] ∨ stop ≠ 0x3A then .error .invalidLength
      else if limit < Numeral.value digits then
        .error (.headersTooLarge (Numeral.value digits) limit)
      else .ok (some (Numeral.value digits, rest))

def takeBody (r : Reader) : Outcome :=
  match r.request.contentLength? with
  | none => (.error .invalidContentLength, r)
  | some size =>
    let missing := size - r.request.body.length
    let body := r.request.body ++ r.pending.take missing
    let r := { r with pending := r.pending.drop missing, request := { r.request with body } }
    if body.length = size then (.ok .done, { r with phase := .done }) else (.ok .incomplete, r)

def takeComma (r : Reader) : Outcome :=
  match r.pending with
  | [] => (.ok .incomplete, r)
  | 0x2C :: rest => (.ok .headersDone, { r with phase := .body, pending := rest })
  | _ :: _ => (.error .missingComma, r)

def takeHeaders (r : Reader) (size : Nat) : Outcome :=
  if r.pending.length < size then (.ok .incomplete, r)
  else
    let (result, env) := HeaderBlock.decode r.request.env (r.pending.take size)
    let r := { r with pending := r.pending.drop size, request := { r.request with env } }
    match result with
    | .error fault => (.error (.headers fault), r)
    | .ok () => { r with phase := .comma }.takeComma

/-- Takes the size and the colon. A wrong size stays where it is. -/
def takeLength (r : Reader) : Outcome :=
  match scanLength r.limit r.pending with
  | .error fault => (.error fault, r)
  | .ok none => (.ok .incomplete, r)
  | .ok (some (size, rest)) =>
    { r with phase := .headers size, pending := rest }.takeHeaders size

/-- Goes on as far as the pending bytes allow. -/
def resume (r : Reader) : Outcome :=
  match r.phase with
  | .length => r.takeLength
  | .headers size => r.takeHeaders size
  | .comma => r.takeComma
  | .body => r.takeBody
  | .done => (.ok .done, r)

def feed (r : Reader) (data : Bytes) : Outcome :=
  { r with pending := r.pending ++ data }.resume

end Reader

end ScgiStub
