import Mathlib.Data.List.Nodup
import ScgiStub.Proofs.Chunking
import ScgiStub.Proofs.Fields
import ScgiStub.Proofs.Numerals

/-! # The grammar of requests

A connection accepts exactly the byte strings that start with a well-formed
request, and the request it accepts is the one that the bytes spell out.
-/

namespace ScgiStub

variable {s : Settings} {env : Environment} {request : Request} {sent tail : Bytes}

namespace Environment

theorem checkContentLength_ok_iff {limit : Nat} : env.checkContentLength limit = .ok () ↔
    ∃ value others size, env.entries = (HeaderName.contentLength, value) :: others ∧
      Numeral.read? (Utf8.encode value) = some size ∧ size ≤ limit := by
  unfold checkContentLength first?
  cases he : env.entries with
  | nil => simp
  | cons first others =>
    obtain ⟨name, value⟩ := first
    by_cases hn : name = HeaderName.contentLength
    · subst hn
      cases hr : Numeral.read? (Utf8.encode value) with
      | none => simp [hr]
      | some size =>
        rcases Nat.lt_or_ge limit size with hl | hl
        · simp [hr, hl]
        · simp [hr, hl, Nat.not_lt.mpr hl]
    · simp [hn]

theorem checkVersion_ok_iff : env.checkVersion = .ok () ↔ (HeaderName.scgi, "1") ∈ env.entries := by
  rw [← get?_eq_some_iff, checkVersion]
  cases env.get? HeaderName.scgi with
  | none => simp
  | some version => by_cases hv : version = "1" <;> simp [hv]

end Environment

theorem Settings.check_ok_iff : s.check env = .ok () ↔
    (∃ value others size, env.entries = (HeaderName.contentLength, value) :: others ∧
      Numeral.read? (Utf8.encode value) = some size ∧ size ≤ s.maxBodySize) ∧
    (s.requireScgiHeader → (HeaderName.scgi, "1") ∈ env.entries) := by
  rw [← Environment.checkContentLength_ok_iff, ← Environment.checkVersion_ok_iff, Settings.check]
  cases env.checkContentLength s.maxBodySize with
  | error refusal => simp
  | ok => cases s.requireScgiHeader <;> simp

theorem Request.contentLength?_eq {value : String}
    (hfirst : request.env.first? = some (HeaderName.contentLength, value)) :
    request.contentLength? = Numeral.readSigned? (Utf8.encode value) := by
  obtain ⟨others, hothers⟩ := List.head?_eq_some_iff.mp hfirst
  have hget : request.env.get? HeaderName.contentLength = some value :=
    Environment.get?_eq_some_iff.mpr (hothers ▸ List.mem_cons_self)
  rw [contentLength?, hget, Option.bind_some]

theorem Request.contentLength?_of_first {value : String} {others : List (String × String)}
    {size : Nat} (he : request.env.entries = (HeaderName.contentLength, value) :: others)
    (hr : Numeral.read? (Utf8.encode value) = some size) : request.contentLength? = some size := by
  have hfirst : request.env.first? = some (HeaderName.contentLength, value) := by
    rw [Environment.first?, he, List.head?_cons]
  have hd := List.all_eq_true.mp (Numeral.read?_eq_some_iff.mp hr).2.1
  rw [contentLength?_eq hfirst, Numeral.readSigned?_eq_read? hd, hr]

/-- A fresh reader has the headers complete once it has their size in digits, a
block of fitting pairs, and the comma. -/
theorem Reader.feed_headersDone_iff {limit : Nat} {r : Reader} :
    Reader.feed { limit } sent = (.ok .headersDone, r) ↔
      ∃ digits rest,
        sent = digits ++ 0x3A :: (HeaderBlock.encode r.request.env.entries ++ 0x2C :: rest) ∧
        (∀ b ∈ digits, Numeral.isDigit b) ∧ digits ≠ [] ∧ digits.length ≤ maxDigits ∧
        Numeral.value digits = (HeaderBlock.encode r.request.env.entries).length ∧
        (HeaderBlock.encode r.request.env.entries).length ≤ limit ∧
        HeaderBlock.Fits ∅ r.request.env.entries ∧
        r = { limit, phase := .body, pending := rest, request := { env := r.request.env } } := by
  have hfeed : Reader.feed { limit } sent = Reader.takeLength { limit, pending := sent } := rfl
  rw [hfeed, takeLength_headersDone_iff]
  constructor
  · rintro ⟨block, rest, env, hscan, hdecode, rfl⟩
    obtain ⟨digits, hsent, hd, hne, hcount, hvalue, hlimit⟩ := scanLength_some_iff.mp hscan
    obtain ⟨pairs, rfl, hfits, henv⟩ := HeaderBlock.decode_ok_iff.mp hdecode
    obtain rfl : env.entries = pairs := henv
    exact ⟨digits, rest, hsent, hd, hne, hcount, hvalue, hlimit, hfits, rfl⟩
  · rintro ⟨digits, rest, hsent, hd, hne, hcount, hvalue, hlimit, hfits, hr⟩
    exact ⟨_, rest, r.request.env,
      scanLength_some_iff.mpr ⟨digits, hsent, hd, hne, hcount, hvalue, hlimit⟩,
      HeaderBlock.decode_ok_iff.mpr ⟨_, rfl, hfits, rfl⟩, hr⟩

namespace Connection.Stage

theorem step_start_accepted_iff : step s (start s) sent = .accepted request ↔
    ∃ r r', Reader.feed { limit := s.maxHeaderSize } sent = (.ok .headersDone, r) ∧
      s.check r.request.env = .ok () ∧ r.feed [] = (.ok .done, r') ∧ r'.request = request := by
  simp only [start, step]
  rcases hf : Reader.feed { limit := s.maxHeaderSize } sent with ⟨_ | progress, r⟩
  · simp [ofOutcome]
  · cases progress with
    | incomplete => simp [ofOutcome]
    | done => exact (Reader.takeLength_ne_done hf).elim
    | headersDone =>
      cases hc : s.check r.request.env with
      | error refusal => simp [ofOutcome, hc]
      | ok =>
        rcases hd : r.feed [] with ⟨_ | progress, r'⟩
        · simp [ofOutcome, hc, hd]
        · cases progress <;> simp [ofOutcome, hc, hd]

end Connection.Stage

namespace Utf8

def IsText (bs : Bytes) : Prop :=
  ∃ text, bs = encode text

def encodePair (pair : String × String) : Bytes × Bytes :=
  (encode pair.1, encode pair.2)

theorem encodePair_injective : Function.Injective encodePair := fun _ _ h =>
  Prod.ext (encode_injective (congrArg Prod.fst h)) (encode_injective (congrArg Prod.snd h))

theorem exists_pairs {headers : List (Bytes × Bytes)}
    (h : ∀ header ∈ headers, IsText header.1 ∧ IsText header.2) :
    ∃ pairs : List (String × String), pairs.map encodePair = headers := by
  induction headers with
  | nil => exact ⟨[], rfl⟩
  | cons header headers ih =>
    obtain ⟨⟨⟨name, hn⟩, ⟨value, hv⟩⟩, hrest⟩ := List.forall_mem_cons.mp h
    obtain ⟨pairs, rfl⟩ := ih hrest
    exact ⟨(name, value) :: pairs, by rw [List.map_cons, encodePair, ← hn, ← hv]⟩

end Utf8

/-- The parts of a request, in the order in which they come. -/
structure Wire where
  /-- The digits of the size of the header block. -/
  length : Bytes
  /-- The value of the first header, `CONTENT_LENGTH`. -/
  size : Bytes
  others : List (Bytes × Bytes)
  body : Bytes

namespace Wire

variable {w : Wire}

def headers (w : Wire) : List (Bytes × Bytes) :=
  (Utf8.encode HeaderName.contentLength, w.size) :: w.others

def block (w : Wire) : Bytes :=
  w.headers.flatMap fun (name, value) => name ++ 0 :: (value ++ [0])

def bytes (w : Wire) : Bytes :=
  w.length ++ 0x3A :: (w.block ++ 0x2C :: w.body)

/-- What the format asks of the parts, and what the settings ask of their sizes. -/
structure Proper (w : Wire) (s : Settings) : Prop where
  length_digits : ∀ b ∈ w.length, Numeral.isDigit b
  length_count : 1 ≤ w.length.length ∧ w.length.length ≤ 10
  length_value : Numeral.value w.length = w.block.length
  block_fits : w.block.length ≤ s.maxHeaderSize
  name_ne : ∀ header ∈ w.headers, header.1 ≠ []
  no_nul : ∀ header ∈ w.headers, 0 ∉ header.1 ∧ 0 ∉ header.2
  text : ∀ header ∈ w.headers, Utf8.IsText header.1 ∧ Utf8.IsText header.2
  distinct : (w.headers.map (·.1)).Nodup
  size_ne : w.size ≠ []
  size_digits : ∀ b ∈ w.size, Numeral.isDigit b
  size_value : Numeral.value w.size = w.body.length
  body_fits : w.body.length ≤ min s.maxBodySize (2 ^ 64 - 1)
  version : s.requireScgiHeader →
    (Utf8.encode HeaderName.scgi, Utf8.encode "1") ∈ w.headers

def padded : Wire where
  length := Utf8.encode "0025"
  size := Utf8.encode "01"
  others := [(Utf8.encode HeaderName.scgi, Utf8.encode "1")]
  body := Utf8.encode "x"

theorem proper_padded : padded.Proper {} := by
  constructor
  case length_digits => exact List.all_eq_true.mp (by decide)
  case size_digits => exact List.all_eq_true.mp (by decide)
  case text =>
    exact List.forall_mem_cons.mpr
      ⟨⟨⟨_, rfl⟩, ⟨"01", rfl⟩⟩, List.forall_mem_singleton.mpr ⟨⟨_, rfl⟩, ⟨_, rfl⟩⟩⟩
  all_goals decide

/-- The request has these headers in this order, and this body. -/
def Spells (w : Wire) (request : Request) : Prop :=
  request.env.entries.map Utf8.encodePair = w.headers ∧ request.body = w.body

theorem block_eq_encode {pairs : List (String × String)}
    (h : pairs.map Utf8.encodePair = w.headers) : w.block = HeaderBlock.encode pairs := by
  rw [block, ← h, HeaderBlock.encode, List.flatMap_map]
  simp [Utf8.encodePair, HeaderBlock.field]

theorem fits_iff {pairs : List (String × String)} (h : pairs.map Utf8.encodePair = w.headers) :
    HeaderBlock.Fits ∅ pairs ↔ (∀ header ∈ w.headers, header.1 ≠ []) ∧
      (∀ header ∈ w.headers, 0 ∉ header.1 ∧ 0 ∉ header.2) ∧ (w.headers.map (·.1)).Nodup := by
  have hnames : w.headers.map (·.1) = (pairs.map (·.1)).map Utf8.encode := by
    rw [← h, List.map_map, List.map_map]; rfl
  have hinj : Function.Injective Utf8.encode := fun _ _ => Utf8.encode_injective
  rw [hnames, List.nodup_map_iff hinj, ← h]
  simp only [List.forall_mem_map, Utf8.encodePair, ne_eq, Utf8.encode_eq_nil_iff,
    Utf8.zero_mem_encode_iff]
  constructor
  · exact fun ⟨hn, hz, hd⟩ => ⟨hn, hz, hd⟩
  · exact fun ⟨hn, hz, hd⟩ => ⟨hn, hz, hd⟩

theorem proper_iff {pairs : List (String × String)} (h : pairs.map Utf8.encodePair = w.headers) :
    w.Proper s ↔ (∀ b ∈ w.length, Numeral.isDigit b) ∧ w.length ≠ [] ∧ w.length.length ≤ 10 ∧
      Numeral.value w.length = (HeaderBlock.encode pairs).length ∧
      (HeaderBlock.encode pairs).length ≤ s.maxHeaderSize ∧ HeaderBlock.Fits ∅ pairs ∧
      Numeral.read? w.size = some w.body.length ∧ w.body.length ≤ s.maxBodySize ∧
      (s.requireScgiHeader → (HeaderName.scgi, "1") ∈ pairs) := by
  have hversion : (Utf8.encode HeaderName.scgi, Utf8.encode "1") ∈ w.headers ↔
      (HeaderName.scgi, "1") ∈ pairs := by
    change Utf8.encodePair (HeaderName.scgi, "1") ∈ w.headers ↔ _
    rw [← h, List.mem_map_of_injective Utf8.encodePair_injective]
  rw [← block_eq_encode h, fits_iff h, Numeral.read?_eq_some_iff, List.all_eq_true, ← hversion]
  constructor
  · intro hw
    obtain ⟨hmax, hbound⟩ := Nat.le_min.mp hw.body_fits
    rw [← Numeral.lt_bound_iff, ← hw.size_value] at hbound
    exact ⟨hw.length_digits, List.ne_nil_of_length_pos hw.length_count.1, hw.length_count.2,
      hw.length_value, hw.block_fits, ⟨hw.name_ne, hw.no_nul, hw.distinct⟩,
      ⟨hw.size_ne, hw.size_digits, hbound, hw.size_value⟩, hmax, hw.version⟩
  · rintro ⟨hdigits, hne, hcount, hvalue, hlimit, ⟨hnames, hzero, hnodup⟩,
      ⟨hsize_ne, hsize_digits, hbound, hsize_value⟩, hmax, hversion⟩
    have htext : ∀ header ∈ w.headers, Utf8.IsText header.1 ∧ Utf8.IsText header.2 := by
      rw [← h]
      exact List.forall_mem_map.mpr fun p _ => ⟨⟨_, rfl⟩, ⟨_, rfl⟩⟩
    rw [hsize_value, Numeral.lt_bound_iff] at hbound
    exact
      { length_digits := hdigits
        length_count := ⟨List.length_pos_iff.mpr hne, hcount⟩
        length_value := hvalue
        block_fits := hlimit
        name_ne := hnames
        no_nul := hzero
        text := htext
        distinct := hnodup
        size_ne := hsize_ne
        size_digits := hsize_digits
        size_value := hsize_value
        body_fits := Nat.le_min.mpr ⟨hmax, hbound⟩
        version := hversion }

theorem exists_first (h : w.Spells request) : ∃ value others,
    request.env.entries = (HeaderName.contentLength, value) :: others ∧
      Utf8.encode value = w.size ∧ others.map Utf8.encodePair = w.others := by
  obtain ⟨⟨name, value⟩, others, hfirst, hname, hothers⟩ := List.map_eq_cons_iff.mp h.1
  obtain rfl : name = HeaderName.contentLength :=
    Utf8.encode_injective (congrArg Prod.fst hname)
  exact ⟨value, others, hfirst, congrArg Prod.snd hname, hothers⟩

open Connection

/-- What is accepted starts with a proper request. -/
theorem exists_of_accepted (h : Stage.step s (Stage.start s) sent = .accepted request) :
    ∃ w tail, sent = bytes w ++ tail ∧ w.Proper s ∧ w.Spells request := by
  obtain ⟨r, r', hheaders, hcheck, hbody, rfl⟩ := Stage.step_start_accepted_iff.mp h
  obtain ⟨digits, rest, rfl, hd, hne, hcount, hvalue, hlimit, hfits, hr⟩ :=
    Reader.feed_headersDone_iff.mp hheaders
  obtain ⟨⟨value, others, size, hfirst, hread, hmax⟩, hversion⟩ := Settings.check_ok_iff.mp hcheck
  generalize r.request.env = env at *
  subst hr
  obtain ⟨size', hlength, hsize, rfl⟩ := (Reader.feed_nil_done_iff rfl rfl).mp hbody
  rw [Request.contentLength?_of_first hfirst hread] at hlength
  obtain rfl := Option.some.inj hlength
  let w : Wire :=
    { length := digits, size := Utf8.encode value, others := others.map Utf8.encodePair,
      body := rest.take size }
  have hspells : env.entries.map Utf8.encodePair = w.headers := by rw [hfirst]; rfl
  have hbody : w.body.length = size := List.length_take_of_le hsize
  rw [← hbody] at hread hmax
  refine ⟨w, rest.drop size, ?_, ?_, hspells, rfl⟩
  · simp [bytes, block_eq_encode hspells, w]
  · exact (proper_iff hspells).mpr
      ⟨hd, hne, hcount, hvalue, hlimit, hfits, hread, hmax, hversion⟩

theorem check_of_proper (hw : w.Proper s) (h : w.Spells request) :
    s.check request.env = .ok () := by
  obtain ⟨value, others, hfirst, hvalue, -⟩ := exists_first h
  obtain ⟨-, -, -, -, -, -, hread, hmax, hversion⟩ := (proper_iff h.1).mp hw
  rw [← hvalue] at hread
  exact Settings.check_ok_iff.mpr ⟨⟨value, others, _, hfirst, hread, hmax⟩, hversion⟩

theorem feed_bytes (hw : w.Proper s) (h : w.Spells request) :
    Reader.feed { limit := s.maxHeaderSize } (w.bytes ++ tail) = (.ok .headersDone,
      { limit := s.maxHeaderSize, phase := .body, pending := w.body ++ tail,
        request := { env := request.env } }) := by
  obtain ⟨hd, hne, hcount, hvalue, hlimit, hfits, -⟩ := (proper_iff h.1).mp hw
  refine Reader.feed_headersDone_iff.mpr
    ⟨w.length, w.body ++ tail, ?_, hd, hne, hcount, hvalue, hlimit, hfits, rfl⟩
  simp [bytes, block_eq_encode h.1]

theorem feed_nil_body (hw : w.Proper s) (h : w.Spells request) {limit : Nat} :
    Reader.feed
        { limit, phase := .body, pending := w.body ++ tail, request := { env := request.env } } [] =
      (.ok .done, { limit, phase := .done, pending := tail, request }) := by
  obtain ⟨value, others, hfirst, hvalue, -⟩ := exists_first h
  obtain ⟨-, -, -, -, -, -, hread, -⟩ := (proper_iff h.1).mp hw
  rw [← hvalue] at hread
  refine (Reader.feed_nil_done_iff rfl rfl).mpr
    ⟨w.body.length, Request.contentLength?_of_first hfirst hread, ?_, ?_⟩
  · simp
  · simp [← h.2]

theorem accepted_of_proper (hw : w.Proper s) (h : w.Spells request) :
    Stage.step s (Stage.start s) (w.bytes ++ tail) = .accepted request := by
  have hcheck := check_of_proper hw h
  exact Stage.step_start_accepted_iff.mpr
    ⟨_, _, feed_bytes hw h, hcheck, feed_nil_body hw h, rfl⟩

theorem exists_spelled (hw : w.Proper s) : ∃ request, w.Spells request := by
  obtain ⟨pairs, hp⟩ := Utf8.exists_pairs hw.text
  obtain ⟨-, -, -, -, -, hfits, -⟩ := (proper_iff hp).mp hw
  exact ⟨⟨⟨pairs, hfits.nodup⟩, w.body⟩, hp, rfl⟩

theorem takeWhile_bytes (hw : w.Proper s) (tail : Bytes) :
    (w.bytes ++ tail).takeWhile Numeral.isDigit = w.length := by
  rw [bytes, List.append_assoc, List.takeWhile_append_of_pos hw.length_digits, List.cons_append,
    List.takeWhile_cons_of_neg (by decide), List.append_nil]

/-- Bytes start with at most one proper request: what a reader makes of them
leaves no choice but in the digits of the length, and those end at the colon. -/
theorem bytes_append_inj {w' : Wire} {tail' : Bytes} (hw : w.Proper s) (hw' : w'.Proper s)
    (h : w.bytes ++ tail = w'.bytes ++ tail') : w = w' ∧ tail = tail' := by
  obtain ⟨request, hr⟩ := exists_spelled hw
  obtain ⟨request', hr'⟩ := exists_spelled hw'
  have ha : Stage.step s (Stage.start s) (w.bytes ++ tail) = .accepted request :=
    accepted_of_proper hw hr
  rw [h, accepted_of_proper hw' hr'] at ha
  obtain rfl : request' = request := Stage.accepted.inj ha
  have hlength : w.length = w'.length := by
    rw [← takeWhile_bytes hw tail, h, takeWhile_bytes hw']
  obtain ⟨hsize, hothers⟩ := List.cons.inj (hr.1.symm.trans hr'.1)
  have hw_eq : w = w' := by
    cases w; cases w'
    simp_all [Spells]
  subst hw_eq
  exact ⟨rfl, List.append_cancel_left h⟩

end Wire

namespace Connection

/-- A connection accepts a request exactly if the bytes, in whatever pieces they
come, start with a proper one. There is only one such start, and the request has
its headers in the same order and its body. -/
theorem accepted_iff_starts_proper (s : Settings) (chunks : List Bytes) :
    ((∃ request, Stage.run s chunks = .accepted request) ↔
      ∃ w tail, chunks.flatten = Wire.bytes w ++ tail ∧ w.Proper s) ∧
    ∀ request, Stage.run s chunks = .accepted request →
      ∃ w tail, chunks.flatten = Wire.bytes w ++ tail ∧ w.Proper s ∧
        request.env.entries.map Utf8.encodePair = w.headers ∧ request.body = w.body ∧
        ∀ w' tail', chunks.flatten = Wire.bytes w' ++ tail' → w'.Proper s →
          w' = w ∧ tail' = tail := by
  rw [Stage.run_eq_step]
  refine ⟨⟨?_, ?_⟩, ?_⟩
  · rintro ⟨request, h⟩
    obtain ⟨w, tail, hsent, hw, -⟩ := Wire.exists_of_accepted h
    exact ⟨w, tail, hsent, hw⟩
  · rintro ⟨w, tail, hsent, hw⟩
    obtain ⟨request, hr⟩ := Wire.exists_spelled hw
    exact ⟨request, hsent ▸ Wire.accepted_of_proper hw hr⟩
  · intro request h
    obtain ⟨w, tail, hsent, hw, hheaders, hbody⟩ := Wire.exists_of_accepted h
    refine ⟨w, tail, hsent, hw, hheaders, hbody, fun w' tail' hsent' hw' => ?_⟩
    exact Wire.bytes_append_inj hw' hw (hsent'.symm.trans hsent)

theorem accepted_padded :
    let chunks := [Wire.padded.bytes.take 9, Wire.padded.bytes.drop 9 ++ Utf8.encode "more"]
    ∃ request, Stage.run {} chunks = .accepted request ∧
      ∃ w tail, chunks.flatten = Wire.bytes w ++ tail ∧ w.Proper {} ∧
        request.env.entries.map Utf8.encodePair = w.headers ∧ request.body = w.body ∧
        ∀ w' tail', chunks.flatten = Wire.bytes w' ++ tail' → w'.Proper {} →
          w' = w ∧ tail' = tail := by
  intro chunks
  have hflat : chunks.flatten = Wire.padded.bytes ++ Utf8.encode "more" := by
    simp only [chunks, List.flatten_cons, List.flatten_nil, List.append_nil]
    rw [← List.append_assoc, List.take_append_drop]
  obtain ⟨request, h⟩ :=
    (accepted_iff_starts_proper {} chunks).1.mpr ⟨_, _, hflat, Wire.proper_padded⟩
  exact ⟨request, h, (accepted_iff_starts_proper {} chunks).2 request h⟩

end Connection

end ScgiStub
