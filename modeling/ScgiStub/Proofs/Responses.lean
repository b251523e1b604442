import ScgiStub.Proofs.LineBreaks
import ScgiStub.Proofs.StatusLine

/-! # Reading responses

A client accepts a line of two digits, or of two digits, a space and a text that is not too
long, and tells everything else by the first thing that is wrong with it. What it accepts
can be written again, and what the server writes is read back up to the first line break.
-/

namespace ScgiStub

namespace Response

variable {bs line body : Bytes} {text word info : String} {code : Nat} {fault : Fault}
  {response : Response} {status : Status}

/-! ## The line -/

/-- The word of a line before its first space, and the text behind the space, if there is one. -/
inductive Splits : String → String → String → Prop
  | alone {word : String} : ' ' ∉ word.toList → Splits word word ""
  | spaced {word info : String} : ' ' ∉ word.toList → Splits s!"{word} {info}" word info

/-- A line that gives a code in two digits, and after one space a text, or no text. -/
inductive Spells : Bytes → Nat → String → Prop
  | bare {tens ones : UInt8} : Numeral.isDigit tens → Numeral.isDigit ones →
      Spells [tens, ones] (Numeral.value [tens, ones]) ""
  | spaced {tens ones : UInt8} {info : String} : Numeral.isDigit tens → Numeral.isDigit ones →
      Spells (tens :: ones :: 0x20 :: Utf8.encode info) (Numeral.value [tens, ones]) info

theorem toList_spaced (word info : String) :
    (s!"{word} {info}" : String).toList = word.toList ++ ' ' :: info.toList := by
  change (word ++ " " ++ info).toList = _
  simp

theorem encode_spaced (word info : String) :
    Utf8.encode s!"{word} {info}" = Utf8.encode word ++ 0x20 :: Utf8.encode info := by
  have hspace : Utf8.encode " " = [0x20] := by decide
  change Utf8.encode (word ++ " " ++ info) = _
  rw [Utf8.encode_append, Utf8.encode_append, hspace, List.append_assoc, List.singleton_append]

theorem splitWord_of_splits (h : Splits text word info) : splitWord text = (word, info) := by
  have hword (hspace : ' ' ∉ word.toList) : ∀ c ∈ word.toList, decide (c ≠ ' ') := by
    intro c hc
    exact decide_eq_true fun he => hspace (he ▸ hc)
  cases h with
  | alone hspace =>
    rw [splitWord, List.takeWhile_eq_self_iff.mpr (hword hspace),
      List.dropWhile_eq_nil_iff.mpr (hword hspace)]
    simp
  | spaced hspace =>
    simp only [splitWord, toList_spaced, List.takeWhile_append_of_pos (hword hspace),
      List.dropWhile_append_of_pos (hword hspace)]
    simp

theorem exists_splits (text : String) : ∃ word info, Splits text word info := by
  by_cases hspace : ' ' ∈ text.toList
  · obtain ⟨front, back, htext, hfront⟩ := List.eq_append_cons_of_mem hspace
    have heq : text = s!"{String.ofList front} {String.ofList back}" := by
      rw [← String.toList_inj, toList_spaced, htext, String.toList_ofList, String.toList_ofList]
    rw [heq]
    exact ⟨_, _, Splits.spaced (by rwa [String.toList_ofList])⟩
  · exact ⟨text, "", .alone hspace⟩

theorem readCode?_eq_some_iff : readCode? word = some code ↔ ∃ tens ones,
    Utf8.encode word = [tens, ones] ∧ Numeral.isDigit tens ∧ Numeral.isDigit ones ∧
      Numeral.value [tens, ones] = code := by
  simp only [readCode?]
  constructor
  · intro h
    split_ifs at h with hlen
    obtain ⟨tens, ones, hword⟩ := List.length_eq_two.mp hlen
    rw [hword, Numeral.read?_eq_some_iff] at h
    obtain ⟨-, hdigits, -, hvalue⟩ := h
    simp only [List.all_cons, List.all_nil, Bool.and_true, Bool.and_eq_true] at hdigits
    exact ⟨tens, ones, hword, hdigits.1, hdigits.2, hvalue⟩
  · rintro ⟨tens, ones, hword, htens, hones, rfl⟩
    have hdigits : ∀ b ∈ [tens, ones], Numeral.isDigit b := by simp [htens, hones]
    have hbound : Numeral.value [tens, ones] < Numeral.bound :=
      lt_trans (b := 10 ^ 2) (Numeral.value_lt hdigits) (by decide)
    have hlen : [tens, ones].length = 2 := rfl
    rw [hword, if_pos hlen, Numeral.read?_eq_some_iff]
    exact ⟨by simp, List.all_eq_true.mpr hdigits, hbound, rfl⟩

theorem readCode?_eq_none_iff : readCode? word = none ↔
    ¬ ∃ tens ones, Utf8.encode word = [tens, ones] ∧ Numeral.isDigit tens ∧
      Numeral.isDigit ones := by
  rw [Option.eq_none_iff_forall_ne_some]
  constructor
  · rintro h ⟨tens, ones, hword, htens, hones⟩
    exact h _ (readCode?_eq_some_iff.mpr ⟨tens, ones, hword, htens, hones, rfl⟩)
  · intro h code hcode
    obtain ⟨tens, ones, hword, htens, hones, -⟩ := readCode?_eq_some_iff.mp hcode
    exact h ⟨tens, ones, hword, htens, hones⟩

theorem spells_iff : Spells line code info ↔ ∃ text word,
    line = Utf8.encode text ∧ Splits text word info ∧ readCode? word = some code := by
  constructor
  · have hword {tens ones : UInt8} (htens : Numeral.isDigit tens) (hones : Numeral.isDigit ones) :
        ∃ word, Utf8.encode word = [tens, ones] ∧ ' ' ∉ word.toList := by
      have hdigits : ∀ b ∈ [tens, ones], Numeral.isDigit b := by simp [htens, hones]
      obtain ⟨word, hword⟩ := Numeral.exists_encode_of_digits hdigits
      refine ⟨word, hword.symm, fun hspace => ?_⟩
      have hmem := (Utf8.mem_encode_iff (c := ' ') (by decide)).mpr hspace
      exact absurd (hdigits _ (hword ▸ hmem)) (by decide)
    rintro (⟨htens, hones⟩ | ⟨htens, hones⟩)
    · obtain ⟨word, heq, hspace⟩ := hword htens hones
      exact ⟨word, word, heq.symm, .alone hspace,
        readCode?_eq_some_iff.mpr ⟨_, _, heq, htens, hones, rfl⟩⟩
    · obtain ⟨word, heq, hspace⟩ := hword htens hones
      exact ⟨_, word, by rw [encode_spaced, heq]; rfl, .spaced hspace,
        readCode?_eq_some_iff.mpr ⟨_, _, heq, htens, hones, rfl⟩⟩
  · rintro ⟨text, word, rfl, hsplits, hcode⟩
    obtain ⟨tens, ones, heq, htens, hones, rfl⟩ := readCode?_eq_some_iff.mp hcode
    cases hsplits with
    | alone => exact heq ▸ .bare htens hones
    | spaced =>
      rw [encode_spaced, heq]
      exact .spaced htens hones

/-! ## What is accepted and what is not -/

/-- What is wrong with a response: the first test that it does not pass, in this order. -/
inductive Defect : Bytes → Fault → Prop
  | empty : Defect [] .empty
  | missingCrlf {bs : Bytes} : bs ≠ [] → Unbroken bs → Defect bs .missingCrlf
  | notText {bs line body : Bytes} : FirstBreak bs line body → (∀ text, line ≠ Utf8.encode text) →
      Defect bs .notText
  | invalidStatus {bs body : Bytes} {text word info : String} :
      FirstBreak bs (Utf8.encode text) body → Splits text word info →
      (¬ ∃ tens ones, Utf8.encode word = [tens, ones] ∧ Numeral.isDigit tens ∧
        Numeral.isDigit ones) → Defect bs (.invalidStatus word)
  | infoTooLong {bs line body : Bytes} {code : Nat} {info : String} : FirstBreak bs line body →
      Spells line code info → 1024 < info.utf8ByteSize →
      Defect bs (.infoTooLong info.utf8ByteSize)

theorem FirstBreak.ne_nil (h : FirstBreak bs line body) : bs ≠ [] := by
  rw [h.eq]
  simp

theorem ofBytes_of_spells (h : FirstBreak bs line body) (hs : Spells line code info) :
    ofBytes bs = if info.utf8ByteSize ≤ 1024 then .ok ⟨code, info, body⟩
      else .error (.infoTooLong info.utf8ByteSize) := by
  obtain ⟨text, word, rfl, hsplits, hcode⟩ := spells_iff.mp hs
  simp only [ofBytes, maxInfoSize, if_neg h.ne_nil, splitLine?_of_firstBreak h,
    Utf8.decode_encode, splitWord_of_splits hsplits, hcode]
  split_ifs
  · omega
  · rfl
  · rfl
  · omega

theorem ofBytes_of_defect (h : Defect bs fault) : ofBytes bs = .error fault := by
  cases h with
  | empty => rfl
  | missingCrlf hne hbs => simp only [ofBytes, if_neg hne, splitLine?_eq_none_iff.mpr hbs]
  | @notText _ line body hbreak htext =>
    simp only [ofBytes, if_neg hbreak.ne_nil, splitLine?_of_firstBreak hbreak]
    cases hdecode : Utf8.decode line with
    | error => rfl
    | ok text => exact absurd (Utf8.decode_eq_ok_iff.mp hdecode) (htext text)
  | invalidStatus hbreak hsplits hcode =>
    simp only [ofBytes, if_neg hbreak.ne_nil, splitLine?_of_firstBreak hbreak,
      Utf8.decode_encode, splitWord_of_splits hsplits, readCode?_eq_none_iff.mpr hcode]
  | infoTooLong hbreak hs hlong => rw [ofBytes_of_spells hbreak hs, if_neg (by omega)]

/-- Bytes are a response that is accepted or have a defect. -/
theorem spells_or_defect (bs : Bytes) : (∃ line body code info, FirstBreak bs line body ∧
    Spells line code info ∧ info.utf8ByteSize ≤ 1024) ∨ ∃ fault, Defect bs fault := by
  by_cases hne : bs = []
  · subst hne
    exact .inr ⟨_, .empty⟩
  rcases splitLine?_cases bs with ⟨-, hbs⟩ | ⟨line, body, -, hbreak⟩
  · exact .inr ⟨_, .missingCrlf hne hbs⟩
  by_cases htext : ∃ text, line = Utf8.encode text
  case neg => exact .inr ⟨_, .notText hbreak (not_exists.mp htext)⟩
  obtain ⟨text, rfl⟩ := htext
  obtain ⟨word, info, hsplits⟩ := exists_splits text
  cases hcode : readCode? word with
  | none => exact .inr ⟨_, .invalidStatus hbreak hsplits (readCode?_eq_none_iff.mp hcode)⟩
  | some code =>
    have hs : Spells (Utf8.encode text) code info :=
      spells_iff.mpr ⟨text, word, rfl, hsplits, hcode⟩
    rcases Nat.lt_or_ge 1024 info.utf8ByteSize with hlong | hshort
    · exact .inr ⟨_, .infoTooLong hbreak hs hlong⟩
    · exact .inl ⟨_, _, code, info, hbreak, hs, hshort⟩

theorem ofBytes_eq_ok_iff : ofBytes bs = .ok response ↔ ∃ line,
    FirstBreak bs line response.body ∧ Spells line response.code response.info ∧
      response.info.utf8ByteSize ≤ 1024 := by
  constructor
  · intro h
    rcases spells_or_defect bs with ⟨line, body, code, info, hbreak, hs, hshort⟩ | ⟨fault, hdefect⟩
    · rw [ofBytes_of_spells hbreak hs, if_pos hshort] at h
      obtain rfl := Except.ok.inj h
      exact ⟨line, hbreak, hs, hshort⟩
    · rw [ofBytes_of_defect hdefect] at h
      cases h
  · rintro ⟨line, hbreak, hs, hshort⟩
    rw [ofBytes_of_spells hbreak hs, if_pos hshort]

theorem ofBytes_eq_error_iff : ofBytes bs = .error fault ↔ Defect bs fault := by
  constructor
  · intro h
    rcases spells_or_defect bs with ⟨line, body, code, info, hbreak, hs, hshort⟩ | ⟨fault', hdefect⟩
    · rw [ofBytes_of_spells hbreak hs, if_pos hshort] at h
      cases h
    · rw [ofBytes_of_defect hdefect] at h
      obtain rfl := Except.error.inj h
      exact hdefect
  · exact ofBytes_of_defect

/-! ## What the server writes -/

theorem Spells.unbroken_iff (h : Spells line code info) :
    Unbroken line ↔ Unbroken (Utf8.encode info) := by
  have hne {b : UInt8} (hb : Numeral.isDigit b) : b ≠ 0x0D := by
    rintro rfl
    cases hb
  cases h with
  | bare htens hones => rw [unbroken_cons_iff (hne htens), unbroken_cons_iff (hne hones)]; rfl
  | spaced htens hones =>
    rw [unbroken_cons_iff (hne htens), unbroken_cons_iff (hne hones),
      unbroken_cons_iff (by decide)]

theorem spells_head (status : Status) (info : String) :
    Spells (Utf8.encode (Reply.head status info)) status.code info := by
  obtain ⟨tens, ones, hwrite, htens, hones, hvalue⟩ := status.exists_digits
  rw [Reply.encode_head, hwrite, ← hvalue]
  exact .spaced htens hones

theorem firstBreak_wire (h : Unbroken (Utf8.encode info)) :
    FirstBreak (Reply.status status info body).wire (Utf8.encode (Reply.head status info)) body :=
  firstBreak_iff.mpr ⟨Reply.wire_status, (spells_head status info).unbroken_iff.mpr h⟩

theorem ofBytes_wire (h : Unbroken (Utf8.encode info)) :
    ofBytes (Reply.status status info body).wire =
      if info.utf8ByteSize ≤ 1024 then .ok ⟨status.code, info, body⟩
      else .error (.infoTooLong info.utf8ByteSize) :=
  ofBytes_of_spells (firstBreak_wire h) (spells_head status info)

/-- What stands behind a line break in the text after the code might as well be in the body. -/
theorem wire_break (a b : String) : (Reply.status status (a ++ "\r\n" ++ b) body).wire =
    (Reply.status status a (Utf8.encode b ++ 0x0D :: 0x0A :: body)).wire := by
  have hbreak : Utf8.encode "\r\n" = [0x0D, 0x0A] := by decide
  simp [Reply.wire_status, Reply.encode_head, hbreak]

theorem write_code {tens ones : UInt8} (htens : Numeral.isDigit tens)
    (hones : Numeral.isDigit ones) (h : status.code = Numeral.value [tens, ones]) :
    Numeral.write status.code = [tens, ones] := by
  have hdigits : ∀ b ∈ [tens, ones], Numeral.isDigit b := by simp [htens, hones]
  rw [h]
  refine Numeral.write_value_of_isPlain (by simp) hdigits fun hzero => ?_
  have hcode : 10 ≤ status.code := by cases status <;> decide
  have htens' : tens.toNat = 48 := congrArg UInt8.toNat (Option.some.inj hzero)
  have hones' := Numeral.isDigit_iff.mp hones
  simp only [Numeral.value, List.foldl_cons, List.foldl_nil] at h
  omega

/-- A response that was accepted is read back when it is written again. That gives the same
bytes if there was a space behind its code. -/
theorem wire_of_spells (hbreak : FirstBreak bs line body) (hs : Spells line code info)
    (hcode : status.code = code) :
    ofBytes (Reply.status status info body).wire = ofBytes bs ∧
      ((Reply.status status info body).wire = bs ↔ 0x20 ∈ line) := by
  obtain ⟨rfl, hline⟩ := firstBreak_iff.mp hbreak
  have hinfo := hs.unbroken_iff.mp hline
  constructor
  · rw [ofBytes_wire hinfo, ofBytes_of_spells hbreak hs, hcode]
  · rw [Reply.wire_status, Reply.encode_head]
    have hspace {b : UInt8} (hb : Numeral.isDigit b) : 0x20 ≠ b := by
      rintro rfl
      cases hb
    cases hs with
    | bare htens hones =>
      rw [write_code htens hones hcode]
      simp [hspace htens, hspace hones]
    | spaced htens hones =>
      rw [write_code htens hones hcode]
      simp

/-- Bytes are accepted exactly if they are a line with a code, the first line break in them
and a body, with a text after the code that is not too long. All others are refused for the
first test that they do not pass. The two digits of a code always fit into a byte. What was
accepted with the code of a status is read back when it is written again, and comes out as
it was exactly if there is a space in its line. -/
theorem ofBytes_classified (bs : Bytes) :
    (∀ response, ofBytes bs = .ok response ↔ ∃ line, FirstBreak bs line response.body ∧
      Spells line response.code response.info ∧ response.info.utf8ByteSize ≤ 1024) ∧
    (∀ fault, ofBytes bs = .error fault ↔ Defect bs fault) ∧
    (∀ tens ones, Numeral.isDigit tens → Numeral.isDigit ones →
      Numeral.value [tens, ones] < UInt8.size) ∧
    ∀ response status, ofBytes bs = .ok response → response.status? = some status →
      let bytes := (Reply.status status response.info response.body).wire
      ofBytes bytes = .ok response ∧
        ∀ line, FirstBreak bs line response.body → (bytes = bs ↔ 0x20 ∈ line) := by
  refine ⟨fun _ => ofBytes_eq_ok_iff, fun _ => ofBytes_eq_error_iff, ?_, ?_⟩
  · intro tens ones htens hones
    have hdigits : ∀ b ∈ [tens, ones], Numeral.isDigit b := by simp [htens, hones]
    exact lt_trans (b := 10 ^ 2) (Numeral.value_lt hdigits) (by decide)
  · intro response status h hstatus bytes
    obtain ⟨line, hbreak, hs, -⟩ := ofBytes_eq_ok_iff.mp h
    obtain ⟨hread, hsame⟩ := wire_of_spells hbreak hs (Status.ofCode?_eq_some_iff.mp hstatus)
    refine ⟨hread.trans h, fun line' hbreak' => ?_⟩
    obtain ⟨rfl, -⟩ := hbreak.unique hbreak'
    exact hsame

theorem ofBytes_classified_bare :
    let bs := Utf8.encode "31\r\n\r\n"
    let response : Response := ⟨31, "", [0x0D, 0x0A]⟩
    ofBytes bs = .ok response ∧ response.status? = some .permanentRedirect ∧
      ofBytes (Reply.status .permanentRedirect "" [0x0D, 0x0A]).wire = .ok response ∧
      (Reply.status .permanentRedirect "" [0x0D, 0x0A]).wire ≠ bs ∧
      Numeral.value [0x33, 0x31] < UInt8.size := by
  intro bs response
  have hbreak : FirstBreak bs [0x33, 0x31] [0x0D, 0x0A] :=
    firstBreak_iff.mpr ⟨by decide, by decide⟩
  obtain ⟨hok, -, hfits, hwritten⟩ := ofBytes_classified bs
  have hread : ofBytes bs = .ok response :=
    (hok response).mpr ⟨_, hbreak, .bare (by decide) (by decide), by decide⟩
  have hstatus : response.status? = some .permanentRedirect := by decide
  obtain ⟨hagain, hsame⟩ := hwritten response .permanentRedirect hread hstatus
  refine ⟨hread, hstatus, hagain, fun heq => ?_, hfits _ _ (by decide) (by decide)⟩
  exact absurd ((hsame _ hbreak).mp heq) (by decide)

end Response

end ScgiStub
