/-! # Text as UTF-8

A text has one form in bytes, and decoding accepts exactly that form
(`decode_eq_ok_iff`). A rejection says where the first wrong byte stands and
how many bytes could not become a character.
-/

namespace ScgiStub

/-- What travels over a connection. -/
abbrev Bytes := List UInt8

namespace Utf8

def encode (s : String) : Bytes :=
  s.toList.flatMap String.utf8EncodeChar

/-- The character that the bytes begin with. -/
def front? (bs : Bytes) : Option Char :=
  (bs.take 4).toByteArray.utf8DecodeChar? 0

/-- The bounds of the bytes that complete a character after its first byte.
A byte that starts no character, or is one by itself, has none. -/
def followers (lead : UInt8) : List (UInt8 × UInt8) :=
  let next := (0x80, 0xBF)
  if lead < 0xC2 then []
  else if lead < 0xE0 then [next]
  else if lead = 0xE0 then [(0xA0, 0xBF), next]
  else if lead = 0xED then [(0x80, 0x9F), next]
  else if lead < 0xF0 then [next, next]
  else if lead = 0xF0 then [(0x90, 0xBF), next, next]
  else if lead < 0xF4 then [next, next, next]
  else if lead = 0xF4 then [(0x80, 0x8F), next, next]
  else []

/-- How many bytes, from the first on, keep within their bounds. -/
def agreeing : List (UInt8 × UInt8) → Bytes → Nat
  | (low, high) :: bounds, b :: bs =>
    if low ≤ b && b ≤ high then agreeing bounds bs + 1 else 0
  | _, _ => 0

/-- How many bytes after `lead` are lost with it when no character starts
here; `none` if the bytes end before the character is complete. -/
def lostAfter? (lead : UInt8) (rest : Bytes) : Option Nat :=
  let bounds := followers lead
  let count := agreeing bounds rest
  if count < bounds.length && count == rest.length then none else some count

/-- Bytes that are no text: where the first wrong ones stand, and how many
they are unless the text just breaks off. -/
structure Fault where
  index : Nat
  length? : Option Nat
  deriving DecidableEq, Repr

def Fault.message (f : Fault) : String :=
  match f.length? with
  | some n => s!"invalid utf-8 sequence of {n} bytes from index {f.index}"
  | none => s!"incomplete utf-8 byte sequence from index {f.index}"

/-- The characters of `bs`, which starts at `index` of some longer string. -/
def decodeFrom (index : Nat) (bs : Bytes) : Except Fault (List Char) :=
  match bs with
  | [] => .ok []
  | lead :: rest =>
    match front? (lead :: rest) with
    | some c =>
      (decodeFrom (index + c.utf8Size) (rest.drop (c.utf8Size - 1))).map (c :: ·)
    | none => .error ⟨index, (lostAfter? lead rest).map (· + 1)⟩
termination_by bs.length
decreasing_by simp only [List.length_drop, List.length_cons]; omega

def decode (bs : Bytes) : Except Fault String :=
  (decodeFrom 0 bs).map String.ofList

/-- The text with one replacement character for each stretch of lost bytes. -/
def lossyChars (bs : Bytes) : List Char :=
  match bs with
  | [] => []
  | lead :: rest =>
    match front? (lead :: rest) with
    | some c => c :: lossyChars (rest.drop (c.utf8Size - 1))
    | none =>
      match lostAfter? lead rest with
      | some n => '\uFFFD' :: lossyChars (rest.drop n)
      | none => ['\uFFFD']
termination_by bs.length
decreasing_by all_goals simp only [List.length_drop, List.length_cons]; omega

def decodeLossy (bs : Bytes) : String :=
  String.ofList (lossyChars bs)

@[simp] theorem encode_empty : encode "" = [] := by
  simp [encode]

@[simp] theorem encode_append (s t : String) : encode (s ++ t) = encode s ++ encode t := by
  simp [encode]

theorem toByteArray_encode (s : String) : (encode s).toByteArray = s.toByteArray := by
  rw [encode, ← String.utf8Encode_toList, List.utf8Encode]

theorem encode_injective {s t : String} (h : encode s = encode t) : s = t := by
  rw [← String.toByteArray_inj, ← toByteArray_encode, ← toByteArray_encode, h]

theorem encode_eq_nil_iff {s : String} : encode s = [] ↔ s = "" := by
  constructor
  · intro h; exact encode_injective (h.trans encode_empty.symm)
  · rintro rfl; exact encode_empty

/-- The byte of an ASCII character belongs to that character and to no other. -/
theorem mem_utf8EncodeChar_iff {c : Char} (hc : c.toNat < 0x80) (d : Char) :
    UInt8.ofNat c.toNat ∈ String.utf8EncodeChar d ↔ d = c := by
  have hd : d = c ↔ d.val.toNat = c.toNat := by
    rw [← Char.val_inj, ← UInt32.toNat_inj]; rfl
  rw [hd]
  simp only [String.utf8EncodeChar]
  split
  · simp only [List.mem_singleton, ← UInt8.toNat_inj, UInt8.toNat_ofNat']
    omega
  · split
    · simp only [List.mem_cons, ← UInt8.toNat_inj, UInt8.toNat_ofNat', List.not_mem_nil, or_false]
      omega
    · split <;> simp only [List.mem_cons, ← UInt8.toNat_inj, UInt8.toNat_ofNat',
        List.not_mem_nil, or_false] <;> omega

theorem mem_encode_iff {c : Char} (hc : c.toNat < 0x80) {s : String} :
    UInt8.ofNat c.toNat ∈ encode s ↔ c ∈ s.toList := by
  simp [encode, List.mem_flatMap, mem_utf8EncodeChar_iff hc]

theorem zero_mem_encode_iff {s : String} : (0 : UInt8) ∈ encode s ↔ '\x00' ∈ s.toList :=
  mem_encode_iff (c := '\x00') (by decide)

theorem length_encode (s : String) : (encode s).length = s.utf8ByteSize := by
  rw [← List.size_toByteArray, toByteArray_encode, String.size_toByteArray]

theorem front?_append (c : Char) (bs : Bytes) :
    front? (String.utf8EncodeChar c ++ bs) = some c := by
  have hc : (String.utf8EncodeChar c).length ≤ 4 := by
    rw [String.length_utf8EncodeChar]; exact c.utf8Size_le_four
  rw [front?, List.take_append, List.take_of_length_le hc, List.toByteArray_append]
  exact ByteArray.utf8DecodeChar?_utf8EncodeChar_append

theorem front?_eq_some {bs : Bytes} {c : Char} (h : front? bs = some c) :
    bs = String.utf8EncodeChar c ++ bs.drop c.utf8Size := by
  obtain ⟨l, hl⟩ := ByteArray.exists_of_utf8DecodeChar?_eq_some h
  have ht : bs.take 4 = String.utf8EncodeChar c ++ l.data.toList := by
    have := congrArg (fun b => b.data.toList) hl
    simpa using this
  have hb : bs = String.utf8EncodeChar c ++ (l.data.toList ++ bs.drop 4) := by
    rw [← List.append_assoc, ← ht, List.take_append_drop]
  conv => rhs; rw [hb, ← String.length_utf8EncodeChar, List.drop_left]
  exact hb

theorem decodeFrom_encode (i : Nat) (cs : List Char) :
    decodeFrom i (cs.flatMap String.utf8EncodeChar) = .ok cs := by
  induction cs generalizing i with
  | nil => simp [decodeFrom]
  | cons c cs ih =>
    rw [List.flatMap_cons]
    have hf := front?_append c (cs.flatMap String.utf8EncodeChar)
    have hl := String.length_utf8EncodeChar c
    cases he : String.utf8EncodeChar c with
    | nil => exact absurd he String.utf8EncodeChar_ne_nil
    | cons b bs =>
      rw [he] at hf hl
      rw [List.cons_append] at hf ⊢
      have hd : c.utf8Size - 1 = bs.length := by simp only [List.length_cons] at hl; omega
      rw [decodeFrom, hf]
      simp only
      rw [hd, List.drop_left, ih]
      rfl

theorem eq_encode_of_decodeFrom {i : Nat} {bs : Bytes} {cs : List Char}
    (h : decodeFrom i bs = .ok cs) : bs = cs.flatMap String.utf8EncodeChar := by
  fun_induction decodeFrom i bs generalizing cs with
  | case1 => simp_all
  | case2 i lead rest c hc ih =>
    obtain ⟨ds, hd, rfl⟩ : ∃ ds, decodeFrom (i + c.utf8Size) (rest.drop (c.utf8Size - 1)) =
        .ok ds ∧ cs = c :: ds := by
      cases hr : decodeFrom (i + c.utf8Size) (rest.drop (c.utf8Size - 1)) with
      | error e => simp [hr, Except.map] at h
      | ok ds => exact ⟨ds, rfl, by simpa [hr, Except.map, eq_comm] using h⟩
    have hp := c.utf8Size_pos
    rw [front?_eq_some hc, List.flatMap_cons, ← ih hd]
    obtain ⟨k, hk⟩ : ∃ k, c.utf8Size = k + 1 := ⟨c.utf8Size - 1, by omega⟩
    rw [hk]; simp
  | case3 => simp at h

@[simp] theorem decode_encode (s : String) : decode (encode s) = .ok s := by
  simp [decode, encode, decodeFrom_encode, Except.map]

/-- Bytes are a text exactly when they are the bytes of that text. -/
theorem decode_eq_ok_iff {bs : Bytes} {s : String} : decode bs = .ok s ↔ bs = encode s := by
  constructor
  · intro h
    cases hr : decodeFrom 0 bs with
    | error e => simp [decode, hr, Except.map] at h
    | ok cs =>
      have hs : String.ofList cs = s := by simpa [decode, hr, Except.map] using h
      rw [eq_encode_of_decodeFrom hr, ← hs, encode, String.toList_ofList]
  · rintro rfl; exact decode_encode s

end Utf8

end ScgiStub
