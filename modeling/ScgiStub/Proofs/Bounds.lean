import ScgiStub.Proofs.Numerals
import ScgiStub.Proofs.Phases

/-! # A reader that could fail

The reader again, in terms of operations that fail outside of their bounds: to take a
byte or a number of bytes that are not there, or to subtract the greater number. A reader
whose body has at most the declared size never fails, and does what the reader does.
-/

namespace ScgiStub

namespace Reader

def drain? (count : Nat) (bs : Bytes) : Option (Bytes × Bytes) :=
  if count ≤ bs.length then some (bs.take count, bs.drop count) else none

def minus? (a b : Nat) : Option Nat :=
  if b ≤ a then some (a - b) else none

def scanLength? (limit : Nat) (bs : Bytes) : Option (Except Fault (Option (Nat × Bytes))) :=
  match bs.findIdx? fun b => !Numeral.isDigit b with
  | none => some (if maxDigits < bs.length then .error .lengthTooLong else .ok none)
  | some stop =>
    if maxDigits < stop then some (.error .lengthTooLong)
    else do
      let terminator ← bs[stop]?
      if stop = 0 ∨ terminator ≠ 0x3A then return .error .invalidLength
      let (digits, _) ← drain? stop bs
      match Utf8.decode digits with
      | .error fault => return .error (.headers (.notText fault))
      | .ok text =>
        match Numeral.readSigned? (Utf8.encode text) with
        | none => return .error .invalidLength
        | some size =>
          if limit < size then return .error (.headersTooLarge size limit)
          let (_, rest) ← drain? (stop + 1) bs
          return .ok (some (size, rest))

def takeBody? (r : Reader) : Option Outcome :=
  match r.request.contentLength? with
  | none => some (.error .invalidContentLength, r)
  | some size => do
    let missing ← minus? size r.request.body.length
    let (more, rest) ← drain? (min r.pending.length missing) r.pending
    let body := r.request.body ++ more
    let r := { r with pending := rest, request := { r.request with body } }
    return if body.length = size then (.ok .done, { r with phase := .done })
      else (.ok .incomplete, r)

def takeComma? (r : Reader) : Option Outcome :=
  match r.pending.head? with
  | none => some (.ok .incomplete, r)
  | some b =>
    if b = 0x2C then do
      let (_, rest) ← drain? 1 r.pending
      return (.ok .headersDone, { r with phase := .body, pending := rest })
    else some (.error .missingComma, r)

def takeHeaders? (r : Reader) (size : Nat) : Option Outcome :=
  if r.pending.length < size then some (.ok .incomplete, r)
  else do
    let (block, rest) ← drain? size r.pending
    let (result, env) := HeaderBlock.decode r.request.env block
    let r := { r with pending := rest, request := { r.request with env } }
    match result with
    | .error fault => return (.error (.headers fault), r)
    | .ok () => takeComma? { r with phase := .comma }

def takeLength? (r : Reader) : Option Outcome := do
  match ← scanLength? r.limit r.pending with
  | .error fault => return (.error fault, r)
  | .ok none => return (.ok .incomplete, r)
  | .ok (some (size, rest)) =>
    takeHeaders? { r with phase := .headers size, pending := rest } size

def resume? (r : Reader) : Option Outcome :=
  match r.phase with
  | .length => r.takeLength?
  | .headers size => r.takeHeaders? size
  | .comma => r.takeComma?
  | .body => r.takeBody?
  | .done => some (.ok .done, r)

def feed? (r : Reader) (data : Bytes) : Option Outcome :=
  { r with pending := r.pending ++ data }.resume?

variable {r : Reader} {data bs : Bytes} {limit count : Nat}

theorem drain?_of_le (h : count ≤ bs.length) :
    drain? count bs = some (bs.take count, bs.drop count) :=
  if_pos h

theorem drain?_append {a b : Bytes} : drain? a.length (a ++ b) = some (a, b) := by
  simp [drain?]

theorem minus?_of_le {a b : Nat} (h : b ≤ a) : minus? a b = some (a - b) :=
  if_pos h

theorem readSigned?_of_digits {digits : Bytes} (h : ∀ b ∈ digits, Numeral.isDigit b)
    (hne : digits ≠ []) (hlen : digits.length ≤ maxDigits) :
    Numeral.readSigned? digits = some (Numeral.value digits) := by
  rw [Numeral.readSigned?_eq_read? h, Numeral.read?_eq_some_iff]
  refine ⟨hne, List.all_eq_true.mpr h, ?_, rfl⟩
  calc Numeral.value digits
    _ < 10 ^ digits.length := Numeral.value_lt h
    _ ≤ 10 ^ maxDigits := Nat.pow_le_pow_right (by omega) hlen
    _ < Numeral.bound := by decide

theorem scanLength?_eq : scanLength? limit bs = some (scanLength limit bs) := by
  rcases digits_or_stop bs with hb | ⟨digits, stop, rest, rfl, hd, hs⟩
  · have hnone : bs.findIdx? (fun b => !Numeral.isDigit b) = none :=
      List.findIdx?_eq_none_iff.mpr fun b hm => by simp [hb b hm]
    rw [scanLength_digits hb, scanLength?, hnone]
  · have hstop : (digits ++ stop :: rest).findIdx? (fun b => !Numeral.isDigit b) =
        some digits.length := by
      have hdigits : digits.findIdx? (fun b => !Numeral.isDigit b) = none :=
        List.findIdx?_eq_none_iff.mpr fun b hm => by simp [hd b hm]
      simp [List.findIdx?_append, hdigits, List.findIdx?_cons, hs]
    obtain ⟨text, htext⟩ := Numeral.exists_encode_of_digits hd
    rw [scanLength_stop hd hs, scanLength?, hstop]
    have hget : (digits ++ stop :: rest)[digits.length]? = some stop := by simp
    have hdigits : drain? digits.length (digits ++ stop :: rest) = some (digits, stop :: rest) :=
      drain?_append
    have hrest : drain? (digits.length + 1) (digits ++ stop :: rest) =
        some (digits ++ [stop], rest) := by
      simpa using drain?_append (a := digits ++ [stop]) (b := rest)
    have hdecode : Utf8.decode digits = .ok text := Utf8.decode_eq_ok_iff.mpr htext
    simp only [hget, hdigits, hrest, hdecode, ← htext, Option.bind_eq_bind, Option.bind_some,
      List.length_eq_zero_iff]
    by_cases hlong : maxDigits < digits.length
    · simp [hlong]
    by_cases hstop : digits = [] ∨ stop ≠ 0x3A
    · simp [hlong, hstop]
    have hread := readSigned?_of_digits hd (not_or.mp hstop).1 (by omega)
    simp only [hlong, hstop, hread, if_false]
    split <;> rfl

theorem takeComma?_eq : r.takeComma? = some r.takeComma := by
  cases hp : r.pending with
  | nil => simp [takeComma?, takeComma, hp]
  | cons b rest =>
    by_cases hb : b = 0x2C
    · subst hb
      simp [takeComma?, takeComma, hp, drain?]
    · simp [takeComma?, takeComma, hp, hb]

theorem takeHeaders?_eq {size : Nat} : r.takeHeaders? size = some (r.takeHeaders size) := by
  unfold takeHeaders? takeHeaders
  split
  · rfl
  · next hmany =>
    rw [drain?_of_le (Nat.not_lt.mp hmany), Option.bind_eq_bind, Option.bind_some]
    rcases hd : HeaderBlock.decode r.request.env (r.pending.take size) with ⟨fault | _, env⟩
    · simp only [hd]
      rfl
    · simp only [hd]
      exact takeComma?_eq

theorem takeLength?_eq : r.takeLength? = some r.takeLength := by
  unfold takeLength? takeLength
  rw [scanLength?_eq, Option.bind_eq_bind, Option.bind_some]
  cases scanLength r.limit r.pending with
  | error fault => rfl
  | ok found =>
    cases found with
    | none => rfl
    | some found => exact takeHeaders?_eq

theorem takeBody?_eq (h : ∀ size, r.request.contentLength? = some size →
    r.request.body.length ≤ size) : r.takeBody? = some r.takeBody := by
  unfold takeBody? takeBody
  cases hc : r.request.contentLength? with
  | none => rfl
  | some size =>
    have hdrain : drain? (min r.pending.length (size - r.request.body.length)) r.pending =
        some (r.pending.take (size - r.request.body.length),
          r.pending.drop (size - r.request.body.length)) := by
      rw [drain?_of_le (Nat.min_le_left _ _), Nat.min_comm, ← List.take_eq_take_min,
        ← List.drop_eq_drop_min]
    simp only [minus?_of_le (h size hc), hdrain, Option.bind_eq_bind, Option.bind_some]
    rfl

/-- In bounds as far as its body goes, a reader never leaves them. -/
theorem feed?_eq (h : r.phase = .body → ∀ size, r.request.contentLength? = some size →
    r.request.body.length ≤ size) : r.feed? data = some (r.feed data) := by
  unfold feed? feed resume? resume
  cases hp : r.phase with
  | length => exact takeLength?_eq
  | headers size => exact takeHeaders?_eq
  | comma => exact takeComma?_eq
  | body => exact takeBody?_eq (h hp)
  | done => rfl

end Reader

end ScgiStub
