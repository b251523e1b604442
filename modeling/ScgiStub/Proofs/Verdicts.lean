import ScgiStub.Proofs.Bounds
import ScgiStub.Proofs.Gate
import ScgiStub.Proofs.WrongBlocks

/-! # The first defect decides

A reading goes through the stages of the format in their order, and the first of them that
finds something wrong or too few bytes decides how it ends, whatever is behind.
-/

namespace ScgiStub

namespace Environment

/-- The size of the body comes first and is a size. -/
def Declares (env : Environment) (size : Nat) : Prop :=
  ∃ value, env.first? = some (HeaderName.contentLength, value) ∧
    Numeral.read? (Utf8.encode value) = some size

theorem checkContentLength_of_declares {env : Environment} {size limit : Nat}
    (h : env.Declares size) : env.checkContentLength limit =
      if limit < size then .error (.bodyTooLarge size limit) else .ok () := by
  obtain ⟨value, hfirst, hread⟩ := h
  simp [checkContentLength, hfirst, hread]

end Environment

namespace Settings

structure Admits (s : Settings) (env : Environment) (size : Nat) : Prop where
  declares : env.Declares size
  size_le : size ≤ s.maxBodySize
  version : s.requireScgiHeader → (HeaderName.scgi, "1") ∈ env.entries

/-- The first thing that is wrong with the headers: the place of the size, the size, or the
version. -/
inductive Refuses (s : Settings) (env : Environment) : Refusal → Prop
  | contentLengthNotFirst : (∀ value, env.first? ≠ some (HeaderName.contentLength, value)) →
      Refuses s env .contentLengthNotFirst
  | malformedContentLength {value : String} :
      env.first? = some (HeaderName.contentLength, value) →
      Numeral.read? (Utf8.encode value) = none → Refuses s env (.malformedContentLength value)
  | bodyTooLarge {size : Nat} : env.Declares size → s.maxBodySize < size →
      Refuses s env (.bodyTooLarge size s.maxBodySize)
  | missingScgi {size : Nat} : env.Declares size → size ≤ s.maxBodySize → s.requireScgiHeader →
      HeaderName.scgi ∉ env.names → Refuses s env .missingScgi
  | unsupportedVersion {size : Nat} {version : String} : env.Declares size →
      size ≤ s.maxBodySize → s.requireScgiHeader → (HeaderName.scgi, version) ∈ env.entries →
      version ≠ "1" → Refuses s env (.unsupportedVersion version)

variable {s : Settings} {env : Environment} {size : Nat} {refusal : Refusal}

theorem check_of_declares (h : env.Declares size) (hle : size ≤ s.maxBodySize) :
    s.check env = if s.requireScgiHeader then env.checkVersion else .ok () := by
  rw [check, Environment.checkContentLength_of_declares h, if_neg (Nat.not_lt.mpr hle)]

theorem check_of_admits (h : s.Admits env size) : s.check env = .ok () := by
  rw [check_of_declares h.declares h.size_le]
  split
  · next hs => exact Environment.checkVersion_ok_iff.mpr (h.version hs)
  · rfl

theorem contentLength?_of_admits (h : s.Admits env size) :
    Request.contentLength? { env } = some size := by
  obtain ⟨value, hfirst, hread⟩ := h.declares
  obtain ⟨others, hothers⟩ := List.head?_eq_some_iff.mp hfirst
  exact Request.contentLength?_of_first hothers hread

theorem check_of_refuses (h : s.Refuses env refusal) : s.check env = .error refusal := by
  cases h with
  | contentLengthNotFirst hfirst =>
    rw [check, Environment.checkContentLength]
    rcases hf : env.first? with _ | ⟨name, value⟩
    · rfl
    · have hname : name ≠ HeaderName.contentLength := by
        rintro rfl
        exact hfirst value hf
      simp [hname]
  | malformedContentLength hfirst hread =>
    simp [check, Environment.checkContentLength, hfirst, hread]
  | bodyTooLarge hd hlt => simp [check, Environment.checkContentLength_of_declares hd, hlt]
  | missingScgi hd hle hs hn =>
    have hget : env.get? HeaderName.scgi = none := by
      rw [← Option.not_isSome_iff_eq_none]
      exact fun hc => hn (Environment.contains_iff.mp hc)
    rw [check_of_declares hd hle, if_pos hs, Environment.checkVersion, hget]
  | unsupportedVersion hd hle hs hm hne =>
    rw [check_of_declares hd hle, if_pos hs, Environment.checkVersion,
      Environment.get?_eq_some_iff.mpr hm]
    exact if_neg hne

theorem admits_or_refuses (s : Settings) (env : Environment) :
    (∃ size, s.Admits env size) ∨ ∃ refusal, s.Refuses env refusal := by
  by_cases hfirst : ∃ value, env.first? = some (HeaderName.contentLength, value)
  case neg => exact .inr ⟨_, .contentLengthNotFirst (not_exists.mp hfirst)⟩
  case pos =>
    obtain ⟨value, hvalue⟩ := hfirst
    cases hread : Numeral.read? (Utf8.encode value) with
    | none => exact .inr ⟨_, .malformedContentLength hvalue hread⟩
    | some size =>
      have hd : env.Declares size := ⟨value, hvalue, hread⟩
      rcases Nat.lt_or_ge s.maxBodySize size with hlt | hle
      · exact .inr ⟨_, .bodyTooLarge hd hlt⟩
      by_cases hs : s.requireScgiHeader
      case neg => exact .inl ⟨size, hd, hle, fun h => absurd h hs⟩
      cases hg : env.get? HeaderName.scgi with
      | none =>
        have hn : HeaderName.scgi ∉ env.names := fun hm => by
          simpa [Environment.contains, hg] using Environment.contains_iff.mpr hm
        exact .inr ⟨_, .missingScgi hd hle hs hn⟩
      | some version =>
        have hm := Environment.get?_eq_some_iff.mp hg
        by_cases hv : version = "1"
        · exact .inl ⟨size, hd, hle, fun _ => hv ▸ hm⟩
        · exact .inr ⟨_, .unsupportedVersion hd hle hs hm hv⟩

end Settings

namespace HeaderBlock

theorem fits_or_wrong (block : Bytes) :
    (∃ env : Environment, block = encode env.entries ∧ Fits ∅ env.entries) ∨
      ∃ fault, Wrong ∅ block fault := by
  rcases hd : decode ∅ block with ⟨fault | _, env⟩
  · exact .inr ⟨fault, decode_error_iff.mp (congrArg Prod.fst hd)⟩
  · obtain ⟨pairs, hblock, hfits, henv⟩ := decode_ok_iff.mp hd
    obtain rfl : env.entries = pairs := henv
    exact .inl ⟨env, hblock, hfits⟩

end HeaderBlock

namespace Connection

/-- How a reading ends once the client sends nothing more. -/
inductive Ending where
  | closed
  | accepted (request : Request)
  | rejected (rejection : Rejection)
  deriving DecidableEq

def Stage.ending : Stage → Ending
  | .waiting _ => .closed
  | .accepted request => .accepted request
  | .rejected rejection => .rejected rejection

/-- The digits of a size that the settings allow, and the colon. -/
def Announces (s : Settings) (lead : Bytes) (size : Nat) : Prop :=
  ∃ digits, lead = digits ++ [0x3A] ∧ (∀ b ∈ digits, Numeral.isDigit b) ∧ digits ≠ [] ∧
    digits.length ≤ 10 ∧ Numeral.value digits = size ∧ size ≤ s.maxHeaderSize

/-- The part of a request up to the comma, with nothing wrong in it but what its headers say. -/
def Heads (s : Settings) (head : Bytes) (env : Environment) : Prop :=
  ∃ lead, Announces s lead (HeaderBlock.encode env.entries).length ∧
    HeaderBlock.Fits ∅ env.entries ∧ head = lead ++ (HeaderBlock.encode env.entries ++ [0x2C])

/-- How the bytes of a client are to end. Every rule asks for all the stages before its own
to have passed, and for nothing of what is behind the part that it names. -/
inductive Verdict (s : Settings) : Bytes → Ending → Prop
  | lengthTooLong {digits rest : Bytes} : (∀ b ∈ digits, Numeral.isDigit b) →
      10 < digits.length → Verdict s (digits ++ rest) (.rejected (.unreadable .lengthTooLong))
  | lengthMissing {digits : Bytes} : (∀ b ∈ digits, Numeral.isDigit b) → digits.length ≤ 10 →
      Verdict s digits .closed
  | invalidLength {digits rest : Bytes} {stop : UInt8} : (∀ b ∈ digits, Numeral.isDigit b) →
      digits.length ≤ 10 → Numeral.isDigit stop = false → digits = [] ∨ stop ≠ 0x3A →
      Verdict s (digits ++ stop :: rest) (.rejected (.unreadable .invalidLength))
  | headersTooLarge {digits rest : Bytes} : (∀ b ∈ digits, Numeral.isDigit b) → digits ≠ [] →
      digits.length ≤ 10 → s.maxHeaderSize < Numeral.value digits →
      Verdict s (digits ++ 0x3A :: rest)
        (.rejected (.unreadable (.headersTooLarge (Numeral.value digits) s.maxHeaderSize)))
  | blockMissing {lead rest : Bytes} {size : Nat} : Announces s lead size → rest.length < size →
      Verdict s (lead ++ rest) .closed
  | blockWrong {lead block rest : Bytes} {fault : HeaderBlock.Fault} :
      Announces s lead block.length → HeaderBlock.Wrong ∅ block fault →
      Verdict s (lead ++ (block ++ rest)) (.rejected (.unreadable (.headers fault)))
  | commaMissing {lead : Bytes} {env : Environment} :
      Announces s lead (HeaderBlock.encode env.entries).length → HeaderBlock.Fits ∅ env.entries →
      Verdict s (lead ++ HeaderBlock.encode env.entries) .closed
  | commaWrong {lead rest : Bytes} {b : UInt8} {env : Environment} :
      Announces s lead (HeaderBlock.encode env.entries).length → HeaderBlock.Fits ∅ env.entries →
      b ≠ 0x2C → Verdict s (lead ++ (HeaderBlock.encode env.entries ++ b :: rest))
        (.rejected (.unreadable .missingComma))
  | refused {head rest : Bytes} {env : Environment} {refusal : Refusal} : Heads s head env →
      s.Refuses env refusal → Verdict s (head ++ rest) (.rejected (.refused refusal))
  | bodyMissing {head rest : Bytes} {env : Environment} {size : Nat} : Heads s head env →
      s.Admits env size → rest.length < size → Verdict s (head ++ rest) .closed
  | accepted {head body rest : Bytes} {env : Environment} : Heads s head env →
      s.Admits env body.length → Verdict s (head ++ (body ++ rest)) (.accepted { env, body })

variable {s : Settings} {lead head rest sent : Bytes} {size : Nat} {env : Environment}
  {ending : Ending}

open Reader (scanLength)

theorem Stage.step_start (sent : Bytes) : step s (start s) sent =
    ofOutcome s (Reader.takeLength { limit := s.maxHeaderSize, pending := sent }) := rfl

theorem step_of_scanLength_error {fault : Reader.Fault}
    (h : scanLength s.maxHeaderSize sent = .error fault) :
    Stage.step s (Stage.start s) sent = .rejected (.unreadable fault) := by
  simp only [Stage.step_start, Reader.takeLength, h, Stage.ofOutcome]

theorem Announces.step (h : Announces s lead size) (rest : Bytes) :
    Stage.step s (Stage.start s) (lead ++ rest) = Stage.ofOutcome s (Reader.takeHeaders
      { limit := s.maxHeaderSize, phase := .headers size, pending := rest } size) := by
  obtain ⟨digits, rfl, hd, hne, hcount, hvalue, hle⟩ := h
  have hscan : scanLength s.maxHeaderSize (digits ++ [0x3A] ++ rest) = .ok (some (size, rest)) :=
    Reader.scanLength_some_iff.mpr ⟨digits, by simp, hd, hne, hcount, hvalue, hle⟩
  simp only [Stage.step_start, Reader.takeLength, hscan]

theorem Announces.step_fits (h : Announces s lead (HeaderBlock.encode env.entries).length)
    (hfits : HeaderBlock.Fits ∅ env.entries) (rest : Bytes) :
    Stage.step s (Stage.start s) (lead ++ (HeaderBlock.encode env.entries ++ rest)) =
      Stage.ofOutcome s (Reader.takeComma
        { limit := s.maxHeaderSize, phase := .comma, pending := rest, request := { env } }) := by
  have hdecode : HeaderBlock.decode ∅ (HeaderBlock.encode env.entries) = (.ok (), env) :=
    HeaderBlock.decode_ok_iff.mpr ⟨_, rfl, hfits, rfl⟩
  rw [h.step, Reader.takeHeaders, if_neg (by simp)]
  simp only [List.take_left, List.drop_left, hdecode]

theorem Heads.step (h : Heads s head env) (rest : Bytes) :
    Stage.step s (Stage.start s) (head ++ rest) = Stage.ofOutcome s (.ok .headersDone,
      { limit := s.maxHeaderSize, phase := .body, pending := rest, request := { env } }) := by
  obtain ⟨lead, hlead, hfits, rfl⟩ := h
  rw [List.append_assoc, List.append_assoc, List.singleton_append, hlead.step_fits hfits]
  rfl

theorem Heads.step_admits (h : Heads s head env) (ha : s.Admits env size) (rest : Bytes) :
    (Stage.step s (Stage.start s) (head ++ rest)).ending =
      if rest.length < size then .closed else .accepted { env, body := rest.take size } := by
  have hlength := Settings.contentLength?_of_admits ha
  let r : Reader :=
    { limit := s.maxHeaderSize, phase := .body, pending := rest, request := { env } }
  rw [h.step, Stage.ofOutcome_headersDone (r := r) rfl (Settings.check_of_admits ha)]
  have hfeed : r.feed [] = r.takeBody := by rw [Reader.feed_nil, Reader.resume]
  rw [hfeed]
  simp only [Reader.takeBody, r, hlength, List.nil_append, List.length_nil, Nat.sub_zero,
    List.length_take]
  rcases Nat.lt_or_ge rest.length size with hfew | hmany
  · rw [if_neg (by omega), if_pos hfew]
    rfl
  · rw [if_pos (by omega), if_neg (by omega)]
    rfl

/-- The rules tell how a reading ends. -/
theorem Verdict.sound (h : Verdict s sent ending) :
    (Stage.step s (Stage.start s) sent).ending = ending := by
  cases h with
  | @lengthTooLong digits rest hd hlong =>
    have hscan : scanLength s.maxHeaderSize digits = .error .lengthTooLong :=
      (Reader.scanLength_digits hd).trans (if_pos hlong)
    have hmore : scanLength s.maxHeaderSize (digits ++ rest) = .error .lengthTooLong := by
      rw [Reader.scanLength_append (by simp [hscan]), hscan]
      rfl
    rw [step_of_scanLength_error hmore]
    rfl
  | lengthMissing hd hshort =>
    have hscan : scanLength s.maxHeaderSize sent = .ok none :=
      (Reader.scanLength_digits hd).trans (if_neg (Nat.not_lt.mpr hshort))
    simp only [Stage.step_start, Reader.takeLength, hscan]
    rfl
  | @invalidLength digits rest stop hd hshort hstop hwrong =>
    have hscan : scanLength s.maxHeaderSize (digits ++ stop :: rest) = .error .invalidLength := by
      rw [Reader.scanLength_stop hd hstop, if_pos hwrong]
      exact if_neg (Nat.not_lt.mpr hshort)
    rw [step_of_scanLength_error hscan]
    rfl
  | @headersTooLarge digits rest hd hne hshort hlarge =>
    have hscan : scanLength s.maxHeaderSize (digits ++ 0x3A :: rest) =
        .error (.headersTooLarge (Numeral.value digits) s.maxHeaderSize) := by
      have hcolon : ¬ (digits = [] ∨ (0x3A : UInt8) ≠ 0x3A) := by simpa using hne
      rw [Reader.scanLength_stop hd (by decide), if_neg hcolon, if_pos hlarge]
      exact if_neg (Nat.not_lt.mpr hshort)
    rw [step_of_scanLength_error hscan]
    rfl
  | blockMissing hlead hfew =>
    rw [hlead.step, Reader.takeHeaders, if_pos hfew]
    rfl
  | @blockWrong lead block rest fault hlead hwrong =>
    have herror := HeaderBlock.decode_error_of_wrong hwrong
    rcases hdecode : HeaderBlock.decode ∅ block with ⟨said, env⟩
    rw [hdecode] at herror
    obtain rfl : said = .error fault := herror
    rw [hlead.step, Reader.takeHeaders, if_neg (by simp)]
    simp only [List.take_left, hdecode, Stage.ofOutcome, Stage.ending]
  | commaMissing hlead hfits =>
    have hstep := hlead.step_fits hfits []
    rw [List.append_nil] at hstep
    rw [hstep]
    rfl
  | @commaWrong lead rest b env hlead hfits hb =>
    rw [hlead.step_fits hfits]
    simp [Reader.takeComma, Stage.ofOutcome, Stage.ending]
  | refused hhead hrefuses =>
    rw [hhead.step]
    simp only [Stage.ofOutcome, Settings.check_of_refuses hrefuses, Stage.ending]
  | bodyMissing hhead hadmits hfew => rw [hhead.step_admits hadmits, if_pos hfew]
  | @accepted head body rest env hhead hadmits =>
    rw [hhead.step_admits hadmits, if_neg (by simp), List.take_left]

/-- What a rule rejects stays rejected for the same reason, whatever else comes. -/
theorem Verdict.rejected_append {rejection : Rejection} (h : Verdict s sent (.rejected rejection))
    (more : Bytes) : Verdict s (sent ++ more) (.rejected rejection) := by
  cases h with
  | lengthTooLong hd hlong =>
    rw [List.append_assoc]
    exact .lengthTooLong hd hlong
  | invalidLength hd hshort hstop hwrong =>
    rw [List.append_assoc, List.cons_append]
    exact .invalidLength hd hshort hstop hwrong
  | headersTooLarge hd hne hshort hlarge =>
    rw [List.append_assoc, List.cons_append]
    exact .headersTooLarge hd hne hshort hlarge
  | blockWrong hlead hwrong =>
    rw [List.append_assoc, List.append_assoc]
    exact .blockWrong hlead hwrong
  | commaWrong hlead hfits hb =>
    rw [List.append_assoc, List.append_assoc, List.cons_append]
    exact .commaWrong hlead hfits hb
  | refused hhead hrefuses =>
    rw [List.append_assoc]
    exact .refused hhead hrefuses

theorem exists_append_of_le_length (h : size ≤ rest.length) :
    ∃ front back, rest = front ++ back ∧ front.length = size :=
  ⟨_, _, (List.take_append_drop size rest).symm, List.length_take_of_le h⟩

theorem exists_verdict_headed (h : Heads s head env) (rest : Bytes) :
    ∃ ending, Verdict s (head ++ rest) ending := by
  rcases s.admits_or_refuses env with ⟨size, hadmits⟩ | ⟨refusal, hrefuses⟩
  case inr => exact ⟨_, .refused h hrefuses⟩
  rcases Nat.lt_or_ge rest.length size with hfew | hmany
  · exact ⟨_, .bodyMissing h hadmits hfew⟩
  · obtain ⟨body, rest, rfl, rfl⟩ := exists_append_of_le_length hmany
    exact ⟨_, .accepted h hadmits⟩

theorem exists_verdict_announced (h : Announces s lead size) (rest : Bytes) :
    ∃ ending, Verdict s (lead ++ rest) ending := by
  rcases Nat.lt_or_ge rest.length size with hfew | hmany
  · exact ⟨_, .blockMissing h hfew⟩
  obtain ⟨block, rest, rfl, rfl⟩ := exists_append_of_le_length hmany
  rcases HeaderBlock.fits_or_wrong block with ⟨env, rfl, hfits⟩ | ⟨fault, hwrong⟩
  case inr => exact ⟨_, .blockWrong h hwrong⟩
  cases rest with
  | nil =>
    rw [List.append_nil]
    exact ⟨_, .commaMissing h hfits⟩
  | cons b rest =>
    by_cases hb : b = 0x2C
    · subst hb
      have hhead : Heads s (lead ++ (HeaderBlock.encode env.entries ++ [0x2C])) env :=
        ⟨lead, h, hfits, rfl⟩
      simpa using exists_verdict_headed hhead rest
    · exact ⟨_, .commaWrong h hfits hb⟩

/-- Some stage decides. -/
theorem exists_verdict (s : Settings) (sent : Bytes) : ∃ ending, Verdict s sent ending := by
  rcases Reader.digits_or_stop sent with hd | ⟨digits, stop, rest, rfl, hd, hstop⟩
  · rcases Nat.lt_or_ge 10 sent.length with hlong | hshort
    · rw [← List.append_nil sent]
      exact ⟨_, .lengthTooLong hd hlong⟩
    · exact ⟨_, .lengthMissing hd hshort⟩
  rcases Nat.lt_or_ge 10 digits.length with hlong | hshort
  · exact ⟨_, .lengthTooLong hd hlong⟩
  by_cases hwrong : digits = [] ∨ stop ≠ 0x3A
  · exact ⟨_, .invalidLength hd hshort hstop hwrong⟩
  obtain ⟨hne, hcolon⟩ := not_or.mp hwrong
  obtain rfl := not_not.mp hcolon
  rcases Nat.lt_or_ge s.maxHeaderSize (Numeral.value digits) with hlarge | hle
  · exact ⟨_, .headersTooLarge hd hne hshort hlarge⟩
  · have hlead : Announces s (digits ++ [0x3A]) (Numeral.value digits) :=
      ⟨digits, rfl, hd, hne, hshort, rfl, hle⟩
    simpa using exists_verdict_announced hlead rest

theorem ending_iff_verdict :
    (Stage.step s (Stage.start s) sent).ending = ending ↔ Verdict s sent ending := by
  constructor
  · intro h
    obtain ⟨ending', hverdict⟩ := exists_verdict s sent
    rwa [← h, hverdict.sound]
  · intro h
    exact h.sound

/-- However the bytes of a client come in, the first stage that does not pass decides how
the reading ends, and more bytes take no rejection back. The loop meets no admitted size that
it cannot read, and no digits in front of the headers that are no text or no size. -/
theorem first_defect_decides (s : Settings) (chunks : List Bytes) :
    (∀ ending, (Stage.run s chunks).ending = ending ↔ Verdict s chunks.flatten ending) ∧
    (∀ rejection more, Verdict s chunks.flatten (.rejected rejection) →
      Verdict s (chunks.flatten ++ more) (.rejected rejection)) ∧
    ([] ∉ chunks → ∃ events, History s (.start s chunks) events (Stage.run s chunks) ∧
      ∀ data r, .fed data (.error .invalidContentLength) r ∉ events) ∧
    ∀ digits rest, chunks.flatten = digits ++ rest → (∀ b ∈ digits, Numeral.isDigit b) →
      digits ≠ [] → digits.length ≤ 10 → ∃ text, Utf8.decode digits = .ok text ∧
        Numeral.readSigned? (Utf8.encode text) = some (Numeral.value digits) := by
  refine ⟨?_, ?_, ?_, ?_⟩
  · intro ending
    rw [Stage.run_eq_step]
    exact ending_iff_verdict
  · intro rejection more h
    exact h.rejected_append more
  · intro hne
    obtain ⟨events, hrun⟩ := Loop.ends_run (s := s) hne
    refine ⟨events, hrun, fun data r hm => ?_⟩
    obtain ⟨past, later, hevents⟩ := List.append_of_mem hm
    exact (hrun.gated.feeding past data _ r later hevents).not_invalid rfl
  · intro digits rest _ hd hne hcount
    obtain ⟨text, rfl⟩ := Numeral.exists_encode_of_digits hd
    exact ⟨text, Utf8.decode_encode text, Reader.readSigned?_of_digits hd hne hcount⟩

theorem first_defect_decides_duplicate :
    let sent := Utf8.encode "14:SCGI\x001\x00SCGI\x002\x00;"
    let chunks := [sent.take 1, sent.drop 1]
    let rejection : Rejection := .unreadable (.headers (.duplicate "SCGI"))
    Verdict {} chunks.flatten (.rejected rejection) ∧
      Verdict {} (chunks.flatten ++ Utf8.encode ",") (.rejected rejection) ∧
      (∃ events, History {} (.start {} chunks) events (Stage.run {} chunks) ∧
        ∀ data r, .fed data (.error .invalidContentLength) r ∉ events) ∧
      ∃ text, Utf8.decode (sent.take 2) = .ok text ∧
        Numeral.readSigned? (Utf8.encode text) = some (Numeral.value (sent.take 2)) := by
  intro sent chunks rejection
  obtain ⟨hending, hmore, hloop, hdigits⟩ := first_defect_decides {} chunks
  have hverdict : Verdict {} chunks.flatten (.rejected rejection) :=
    (hending _).mp (by decide +kernel)
  refine ⟨hverdict, hmore rejection _ hverdict, hloop (by decide), ?_⟩
  have hd : ∀ b ∈ sent.take 2, Numeral.isDigit b := List.all_eq_true.mp (by decide)
  exact hdigits (sent.take 2) (sent.drop 2) (by decide) hd (by decide) (by decide)

end Connection

end ScgiStub
