import Mathlib.Data.Nat.Digits.Defs
import ScgiStub.Proofs.LineBreaks
import ScgiStub.Proofs.Verdicts
import ScgiStub.Proofs.Words

/-! # The declared size of a body

The size of a body is read once to admit the request and again to take the body, and only the
second reading allows a plus sign. Of an admitted request, both find the same size.
-/

namespace ScgiStub

namespace Numeral

variable {text rest : String} {cs : List Char} {n : Nat}

/-- The characters are decimal digits, at least one, and this is their number. -/
structure Spells (cs : List Char) (n : Nat) : Prop where
  ne_nil : cs ≠ []
  digits : ∀ c ∈ cs, c.isDigit
  value : Nat.ofDigits 10 (cs.reverse.map fun c => c.toNat - '0'.toNat) = n

/-- The text is a numeral of the number, with one plus sign before the digits or none. -/
def Denotes (text : String) (n : Nat) : Prop :=
  Spells text.toList n ∨ ∃ cs, text.toList = '+' :: cs ∧ Spells cs n

theorem isDigit_char_iff {c : Char} : c.isDigit ↔ 48 ≤ c.toNat ∧ c.toNat ≤ 57 := by
  simp [Char.isDigit, UInt32.le_iff_toNat_le]

theorem isDigit_ofNat_iff {c : Char} (hc : c.toNat < 0x80) :
    isDigit (UInt8.ofNat c.toNat) ↔ c.isDigit := by
  have hmod : c.toNat % 256 = c.toNat := Nat.mod_eq_of_lt (by omega)
  rw [isDigit_iff, isDigit_char_iff, UInt8.toNat_ofNat']
  simp only [Nat.reducePow, hmod]

theorem isDigit_of_mem_utf8EncodeChar {b : UInt8} {c : Char} (hb : isDigit b)
    (hm : b ∈ String.utf8EncodeChar c) : c.isDigit := by
  have hlt := (isDigit_iff.mp hb).2
  have hchar : (Char.ofUInt8 b).toNat = b.toNat := UInt8.toNat_toUInt32 b
  have hascii : (Char.ofUInt8 b).toNat < 0x80 := by omega
  have hbyte : UInt8.ofNat (Char.ofUInt8 b).toNat = b := by rw [hchar, UInt8.ofNat_toNat]
  rw [← hbyte, Utf8.mem_utf8EncodeChar_iff hascii] at hm
  subst hm
  rwa [← hbyte, isDigit_ofNat_iff hascii] at hb

theorem utf8EncodeChar_of_isDigit {c : Char} (h : c.isDigit) :
    String.utf8EncodeChar c = [UInt8.ofNat c.toNat] := by
  have := isDigit_char_iff.mp h
  exact Utf8.utf8EncodeChar_of_lt (by omega)

theorem flatMap_of_digits (h : ∀ c ∈ cs, c.isDigit) :
    cs.flatMap String.utf8EncodeChar = cs.map fun c => UInt8.ofNat c.toNat := by
  induction cs with
  | nil => rfl
  | cons c cs ih =>
    obtain ⟨hc, hcs⟩ := List.forall_mem_cons.mp h
    rw [List.flatMap_cons, List.map_cons, utf8EncodeChar_of_isDigit hc, ih hcs,
      List.singleton_append]

theorem isDigit_of_mem_encode_iff :
    (∀ b ∈ Utf8.encode text, isDigit b) ↔ ∀ c ∈ text.toList, c.isDigit := by
  constructor
  · intro h c hc
    obtain ⟨b, hb⟩ := List.exists_mem_of_ne_nil _ (String.utf8EncodeChar_ne_nil (c := c))
    exact isDigit_of_mem_utf8EncodeChar (h b (List.mem_flatMap.mpr ⟨c, hc, hb⟩)) hb
  · intro h
    rw [Utf8.encode, flatMap_of_digits h, List.forall_mem_map]
    intro c hc
    have := isDigit_char_iff.mp (h c hc)
    exact (isDigit_ofNat_iff (by omega)).mpr (h c hc)

theorem value_map_eq_ofDigits (h : ∀ c ∈ cs, c.isDigit) :
    value (cs.map fun c => UInt8.ofNat c.toNat) =
      Nat.ofDigits 10 (cs.reverse.map fun c => c.toNat - '0'.toNat) := by
  induction cs using List.reverseRecOn with
  | nil => rfl
  | append_singleton cs c ih =>
    obtain ⟨hcs, hc⟩ := List.forall_mem_append.mp h
    have hrange := isDigit_char_iff.mp (hc c List.mem_cons_self)
    have hbyte : (UInt8.ofNat c.toNat).toNat = c.toNat := by
      rw [UInt8.toNat_ofNat']
      omega
    have hzero : '0'.toNat = 48 := rfl
    rw [List.map_append, List.map_singleton, value_append, ih hcs, List.reverse_append,
      List.reverse_singleton, List.singleton_append, List.map_cons, Nat.ofDigits_cons, hbyte,
      hzero]
    exact Nat.add_comm _ _

theorem read?_encode_eq_some_iff :
    read? (Utf8.encode text) = some n ↔ Spells text.toList n ∧ n < 2 ^ 64 := by
  rw [read?_eq_some_iff, List.all_eq_true, isDigit_of_mem_encode_iff, ne_eq,
    Utf8.encode_eq_nil_iff]
  have hnil : text = "" ↔ text.toList = [] := by rw [String.toList_eq_nil_iff]
  have hvalue (h : ∀ c ∈ text.toList, c.isDigit) : value (Utf8.encode text) =
      Nat.ofDigits 10 (text.toList.reverse.map fun c => c.toNat - '0'.toNat) := by
    rw [Utf8.encode, flatMap_of_digits h, value_map_eq_ofDigits h]
  constructor
  · rintro ⟨hne, hdigits, hlt, rfl⟩
    exact ⟨⟨fun h => hne (hnil.mpr h), hdigits, (hvalue hdigits).symm⟩, hlt⟩
  · rintro ⟨⟨hne, hdigits, rfl⟩, hlt⟩
    rw [← hvalue hdigits] at hlt ⊢
    exact ⟨fun h => hne (hnil.mp h), hdigits, hlt, rfl⟩

theorem readSigned?_plus : readSigned? (Utf8.encode ("+" ++ rest)) = read? (Utf8.encode rest) := by
  have hplus : Utf8.encode "+" = [0x2B] := by decide
  rw [Utf8.encode_append, hplus, List.singleton_append, readSigned?]

theorem readSigned?_of_ne_plus (h : ∀ rest, text ≠ "+" ++ rest) :
    readSigned? (Utf8.encode text) = read? (Utf8.encode text) := by
  unfold readSigned?
  split
  · next digits heq =>
    have hascii : '+'.toNat < 0x80 := by decide
    have hplus : Utf8.encode text = [] ++ UInt8.ofNat '+'.toNat :: digits := heq
    obtain ⟨front, back, htext, hfront, -⟩ := (Utf8.encode_eq_append_cons_iff hascii).mp hplus
    obtain rfl := Utf8.encode_eq_nil_iff.mp hfront.symm
    exact absurd htext (h back)
  · rfl

theorem not_spells_plus : ¬ Spells ('+' :: cs) n := by
  intro h
  exact absurd (h.digits '+' List.mem_cons_self) (by decide)

/-- Without a sign, both readings are one; with a sign, there is only the laxer one. -/
theorem read?_eq_some_iff_readSigned? : read? (Utf8.encode text) = some n ↔
    (¬ ∃ rest, text = "+" ++ rest) ∧ readSigned? (Utf8.encode text) = some n := by
  by_cases h : ∃ rest, text = "+" ++ rest
  · obtain ⟨rest, rfl⟩ := h
    refine iff_of_false ?_ fun hn => hn.1 ⟨rest, rfl⟩
    rw [read?_encode_eq_some_iff]
    rintro ⟨hs, -⟩
    exact not_spells_plus (by simpa using hs)
  · rw [readSigned?_of_ne_plus (not_exists.mp h), and_iff_right h]

theorem read?_eq_none_iff : read? (Utf8.encode text) = none ↔
    readSigned? (Utf8.encode text) = none ∨ ∃ rest, text = "+" ++ rest := by
  simp only [Option.eq_none_iff_forall_ne_some, ne_eq, read?_eq_some_iff_readSigned?]
  by_cases h : ∃ rest, text = "+" ++ rest <;> simp [h]

theorem readSigned?_encode_eq_some_iff :
    readSigned? (Utf8.encode text) = some n ↔ Denotes text n ∧ n < 2 ^ 64 := by
  by_cases h : ∃ rest, text = "+" ++ rest
  · obtain ⟨rest, rfl⟩ := h
    have hdenotes : Denotes ("+" ++ rest) n ↔ Spells rest.toList n := by
      simp [Denotes, not_spells_plus]
    rw [readSigned?_plus, read?_encode_eq_some_iff, hdenotes]
  · have hdenotes : Denotes text n ↔ Spells text.toList n := by
      refine or_iff_left ?_
      rintro ⟨cs, hcs, -⟩
      refine h ⟨String.ofList cs, ?_⟩
      rw [← String.toList_inj]
      simp [hcs]
    rw [readSigned?_of_ne_plus (not_exists.mp h), read?_encode_eq_some_iff, hdenotes]

end Numeral

theorem Environment.declares_iff {env : Environment} {value : String} {size : Nat}
    (hfirst : env.first? = some (HeaderName.contentLength, value)) :
    env.Declares size ↔ Numeral.read? (Utf8.encode value) = some size := by
  simp [Declares, hfirst]

namespace Settings

variable {s : Settings} {env : Environment} {refusal : Refusal}

theorem check_eq_error_iff : s.check env = .error refusal ↔ s.Refuses env refusal := by
  constructor
  · intro h
    rcases admits_or_refuses s env with ⟨size, ha⟩ | ⟨refusal', hr⟩
    · cases (check_of_admits ha).symm.trans h
    · cases (check_of_refuses hr).symm.trans h
      exact hr
  · exact check_of_refuses

theorem exists_admits_of_check (h : s.check env = .ok ()) : ∃ size, s.Admits env size := by
  rcases admits_or_refuses s env with ha | ⟨refusal, hr⟩
  · exact ha
  · cases (check_of_refuses hr).symm.trans h

end Settings

theorem Reader.feed_sized {r : Reader} {data : Bytes} {size : Nat} (hp : r.phase = .body)
    (hsize : r.request.contentLength? = some size) (hle : r.request.body.length ≤ size) :
    let got := r.request.body ++ (r.pending ++ data)
    (r.feed data).1 = (if size ≤ got.length then .ok .done else .ok .incomplete) ∧
      (r.feed data).2.request.body = got.take size ∧ (r.feed data).2.pending = got.drop size := by
  intro got
  have hbody : ((r.push data).fill size).request.body = got.take size := by
    simp only [fill, request_push, pending_push, got, List.take_append, List.take_of_length_le hle]
  have hpending : ((r.push data).fill size).pending = got.drop size := by
    simp only [fill, request_push, pending_push, got, List.drop_append,
      List.drop_eq_nil_of_le hle, List.nil_append]
  have hlength : ((r.push data).fill size).request.body.length = size ↔ size ≤ got.length := by
    rw [hbody, List.length_take]
    omega
  have hfeed : r.feed data = (r.push data).takeBody := by
    rw [feed_eq_resume, resume, phase_push, hp]
  rcases h : (r.push data).takeBody with ⟨said, r'⟩
  rw [hfeed, h]
  rcases takeBody_cases h with ⟨hn, -⟩ | ⟨size', hs, hdone, rfl, rfl⟩ | ⟨size', hs, hwait, rfl, rfl⟩
  · cases hn.symm.trans hsize
  · obtain rfl : size' = size := Option.some.inj (hs.symm.trans hsize)
    exact ⟨(if_pos (hlength.mp hdone)).symm, hbody, hpending⟩
  · obtain rfl : size' = size := Option.some.inj (hs.symm.trans hsize)
    exact ⟨(if_neg fun hl => hwait (hlength.mpr hl)).symm, hbody, hpending⟩

namespace Request

variable {request : Request} {value : String} {s : Settings}

theorem declares_iff_contentLength? {size : Nat}
    (hfirst : request.env.first? = some (HeaderName.contentLength, value)) :
    request.env.Declares size ↔
      ¬ (request.contentLength? = none ∨ ∃ rest, value = "+" ++ rest) ∧
        request.contentLength? = some size := by
  rw [Environment.declares_iff hfirst, Numeral.read?_eq_some_iff_readSigned?,
    ← contentLength?_eq hfirst, not_or, and_assoc]
  constructor
  · rintro ⟨hplus, hsize⟩
    exact ⟨by simp [hsize], hplus, hsize⟩
  · rintro ⟨-, hplus, hsize⟩
    exact ⟨hplus, hsize⟩

/-- The size is declared in digits below `2 ^ 64`, with one plus sign before them or none, and
to read it in a machine word makes no difference. Where it comes first, it is refused as
malformed if it is no size or has a sign, and as too large if it is one above the limit. If the
headers are admitted, it is within the limit, and the body is taken by it. -/
theorem declared_size_agrees (request : Request) :
    (∀ n, request.contentLength? = some n ↔
      ∃ value, request.env.get? HeaderName.contentLength = some value ∧
        Numeral.Denotes value n ∧ n < 2 ^ 64) ∧
    (request.contentLength? = (request.env.get? HeaderName.contentLength).bind fun value =>
      (Numeral.readWord? (Utf8.encode value)).map UInt64.toNat) ∧
    (∀ value, request.env.first? = some (HeaderName.contentLength, value) → ∀ s : Settings,
      let malformed := request.contentLength? = none ∨ ∃ rest, value = "+" ++ rest
      (∀ text, s.check request.env = .error (.malformedContentLength text) ↔
        malformed ∧ text = value) ∧
      ∀ size limit, s.check request.env = .error (.bodyTooLarge size limit) ↔
        ¬ malformed ∧ request.contentLength? = some size ∧ s.maxBodySize < size ∧
          limit = s.maxBodySize) ∧
    ∀ s : Settings, s.check request.env = .ok () →
      ∃ n, request.contentLength? = some n ∧ n ≤ s.maxBodySize ∧
        ∀ (r : Reader) (data : Bytes), r.phase = .body → r.request.env = request.env →
          r.request.body.length ≤ n →
          let got := r.request.body ++ (r.pending ++ data)
          (r.feed data).1 = (if n ≤ got.length then .ok .done else .ok .incomplete) ∧
            (r.feed data).2.request.body = got.take n ∧
            (r.feed data).2.pending = got.drop n := by
  refine ⟨?_, ?_, ?_, ?_⟩
  · intro n
    simp only [contentLength?, Option.bind_eq_some_iff, Numeral.readSigned?_encode_eq_some_iff]
  · simp only [contentLength?, Numeral.map_readWord?]
  · intro value hfirst s malformed
    have hmalformed : malformed ↔ Numeral.read? (Utf8.encode value) = none := by
      rw [Numeral.read?_eq_none_iff, ← contentLength?_eq hfirst]
    have hdeclares (size : Nat) : request.env.Declares size ↔
        ¬ malformed ∧ request.contentLength? = some size :=
      declares_iff_contentLength? hfirst
    constructor
    · intro text
      rw [Settings.check_eq_error_iff, hmalformed]
      constructor
      · rintro (_ | ⟨htext, hread⟩)
        obtain rfl : text = value := by simpa using htext.symm.trans hfirst
        exact ⟨hread, rfl⟩
      · rintro ⟨hread, rfl⟩
        exact .malformedContentLength hfirst hread
    · intro size limit
      rw [Settings.check_eq_error_iff, ← and_assoc, ← hdeclares]
      constructor
      · rintro (_ | _ | ⟨hd, hlt⟩)
        exact ⟨hd, hlt, rfl⟩
      · rintro ⟨hd, hlt, rfl⟩
        exact .bodyTooLarge hd hlt
  · intro s hcheck
    obtain ⟨n, ha⟩ := Settings.exists_admits_of_check hcheck
    have hsize : request.contentLength? = some n := Settings.contentLength?_of_admits ha
    refine ⟨n, hsize, ha.size_le, ?_⟩
    intro r data hp henv hle
    apply Reader.feed_sized hp _ hle
    rw [contentLength?, henv]
    exact hsize

theorem declared_size_agrees_plus :
    let signed : Request := { env := .ofPairs [("CONTENT_LENGTH", "+02"), ("SCGI", "1")] }
    let padded : Request := { env := .ofPairs [("CONTENT_LENGTH", "002"), ("SCGI", "1")] }
    let r : Reader := { limit := 0, phase := .body, pending := [1], request := padded }
    signed.contentLength? = some 2 ∧
      Settings.check {} signed.env = .error (.malformedContentLength "+02") ∧
      Settings.check {} padded.env = .ok () ∧
      (r.feed [2, 3]).1 = .ok .done ∧ (r.feed [2, 3]).2.request.body = [1, 2] ∧
      (r.feed [2, 3]).2.pending = [3] := by
  intro signed padded r
  have hfirst : signed.env.first? = some (HeaderName.contentLength, "+02") := by decide +kernel
  obtain ⟨hlength, -, hrefused, -⟩ := declared_size_agrees signed
  obtain ⟨hmalformed, -⟩ := hrefused "+02" hfirst {}
  have hsigned : signed.contentLength? = some 2 :=
    (hlength 2).mpr ⟨"+02", by decide +kernel,
      .inr ⟨['0', '2'], rfl, nofun, List.all_eq_true.mp rfl, rfl⟩, by decide⟩
  have hcheck : Settings.check {} padded.env = .ok () := by decide +kernel
  obtain ⟨-, -, -, hadmitted⟩ := declared_size_agrees padded
  obtain ⟨n, hn, -, hread⟩ := hadmitted {} hcheck
  obtain rfl : 2 = n := Option.some.inj (Eq.trans (by decide +kernel) hn)
  exact ⟨hsigned, (hmalformed "+02").mpr ⟨.inr ⟨"02", rfl⟩, rfl⟩, hcheck,
    hread r [2, 3] rfl rfl (by decide)⟩

end Request

end ScgiStub
