import ScgiStub.Proofs.Driving
import ScgiStub.Proofs.Grammar
import ScgiStub.Request.Encoder

/-! # Sending and reading back

A reader delivers what a client sends, in whatever pieces it comes. What a
connection has accepted can be sent again, and what is sent then differs from
what came in leading zeros only.
-/

namespace ScgiStub

variable {s : Settings} {env : Environment} {request : Request} {body tail : Bytes}
  {chunks : List Bytes}

/-- The environment leaves the size of the body to the client, and its names and
values make fields. -/
structure Environment.Sendable (env : Environment) : Prop where
  contentLength : HeaderName.contentLength ∉ env.names
  name_ne : "" ∉ env.names
  no_nul : ∀ p ∈ env.entries, '\x00' ∉ p.1.toList ∧ '\x00' ∉ p.2.toList

theorem HeaderName.contentLength_ne_empty : contentLength ≠ "" := by decide

theorem HeaderName.nul_not_mem_contentLength : '\x00' ∉ contentLength.toList := by decide

theorem HeaderBlock.fits_cons_iff {value : String} (hv : '\x00' ∉ value.toList) :
    Fits ∅ ((HeaderName.contentLength, value) :: env.entries) ↔ env.Sendable := by
  constructor
  · rintro ⟨hnames, hzero, hnodup⟩
    obtain ⟨hfirst, -⟩ := List.nodup_cons.mp hnodup
    refine ⟨hfirst, fun hm => ?_, (List.forall_mem_cons.mp hzero).2⟩
    obtain ⟨p, hp, he⟩ := List.mem_map.mp hm
    exact (List.forall_mem_cons.mp hnames).2 p hp he
  · rintro ⟨hfirst, hname, hzero⟩
    constructor
    · refine List.forall_mem_cons.mpr ⟨HeaderName.contentLength_ne_empty, fun p hp he => ?_⟩
      exact hname (he ▸ List.mem_map_of_mem (f := (·.1)) hp)
    · exact List.forall_mem_cons.mpr ⟨⟨HeaderName.nul_not_mem_contentLength, hv⟩, hzero⟩
    · exact List.nodup_cons.mpr ⟨hfirst, env.nodup⟩

namespace Wire

variable {w : Wire}

theorem delivers (hw : w.Proper s) (h : w.Spells request) (hc : chunks.flatten = w.bytes ++ tail) :
    Reader.Delivers s.maxHeaderSize chunks request.env.entries request.body tail := by
  have hheaders : Reader.feed { limit := s.maxHeaderSize } chunks.flatten = _ :=
    hc ▸ feed_bytes hw h
  apply Reader.delivers_of_feed hheaders (feed_nil_body hw h)
  exact ⟨rfl, rfl, rfl⟩

end Wire

namespace Reader

theorem feed_netstring {limit : Nat} (headers : Environment)
    (hfits : HeaderBlock.Fits ∅ headers.entries)
    (hcount : (HeaderBlock.encode headers.entries).length < 10 ^ 10)
    (hlimit : (HeaderBlock.encode headers.entries).length ≤ limit) :
    feed { limit } (Request.netstring (HeaderBlock.encode headers.entries) ++ tail) =
      (.ok .headersDone,
        { limit, phase := .body, pending := tail, request := { env := headers } }) := by
  rw [Request.netstring]
  exact feed_headersDone_iff.mpr ⟨_, tail, by simp [Numeral.write], Numeral.isDigit_of_mem_write,
    Numeral.write_ne_nil, Numeral.length_write_le hcount, Numeral.value_write, hlimit, hfits, rfl⟩

end Reader

namespace Request

theorem nul_not_mem_size : '\x00' ∉ (toString body.length).toList :=
  Numeral.not_mem_toString (by decide) (by decide) _

theorem fits_headers_iff : HeaderBlock.Fits ∅ (headers env body) ↔ env.Sendable :=
  HeaderBlock.fits_cons_iff nul_not_mem_size

theorem fits_headers (h : env.Sendable) : HeaderBlock.Fits ∅ (headers env body) :=
  fits_headers_iff.mpr h

theorem holdsNul_iff {pair : String × String} :
    holdsNul pair ↔ ¬ ('\x00' ∉ pair.1.toList ∧ '\x00' ∉ pair.2.toList) := by
  simp only [holdsNul, Bool.or_eq_true, decide_eq_true_eq, not_and_or, not_not]

theorem no_nul_headers_iff (body : Bytes) :
    (∀ p ∈ headers env body, '\x00' ∉ p.1.toList ∧ '\x00' ∉ p.2.toList) ↔
      ∀ p ∈ env.entries, '\x00' ∉ p.1.toList ∧ '\x00' ∉ p.2.toList := by
  rw [headers, List.forall_mem_cons]
  exact and_iff_right ⟨HeaderName.nul_not_mem_contentLength, nul_not_mem_size⟩

theorem encode_eq_ok_iff {bytes : Bytes} : encode env body = .ok bytes ↔
    (HeaderName.contentLength ∉ env.names ∧
      ∀ p ∈ env.entries, '\x00' ∉ p.1.toList ∧ '\x00' ∉ p.2.toList) ∧
    bytes = netstring (HeaderBlock.encode (headers env body)) ++ body := by
  have hnul : (headers env body).find? holdsNul = none ↔
      ∀ p ∈ env.entries, '\x00' ∉ p.1.toList ∧ '\x00' ∉ p.2.toList := by
    rw [← no_nul_headers_iff body, List.find?_eq_none]
    simp only [holdsNul_iff, not_not]
  rw [← hnul, ← Environment.contains_iff, encode]
  by_cases hc : env.contains HeaderName.contentLength
  · simp [hc]
  · cases hf : (headers env body).find? holdsNul with
    | none => simp [hc, eq_comm]
    | some pair => simp [hc]

theorem encode_of_sendable (h : env.Sendable) : encode env body =
    .ok (netstring (HeaderBlock.encode (headers env body)) ++ body) :=
  encode_eq_ok_iff.mpr ⟨⟨h.contentLength, h.no_nul⟩, rfl⟩

def wire (env : Environment) (body : Bytes) : Wire where
  length := Numeral.write (HeaderBlock.encode (headers env body)).length
  size := Numeral.write body.length
  others := env.entries.map Utf8.encodePair
  body := body

theorem length_wire : (wire env body).length =
    Numeral.write (HeaderBlock.encode (headers env body)).length := rfl

theorem size_wire : (wire env body).size = Numeral.write body.length := rfl

theorem headers_wire : (headers env body).map Utf8.encodePair = (wire env body).headers := rfl

theorem block_wire : (wire env body).block = HeaderBlock.encode (headers env body) :=
  Wire.block_eq_encode rfl

theorem bytes_wire :
    (wire env body).bytes = netstring (HeaderBlock.encode (headers env body)) ++ body := by
  rw [Wire.bytes, block_wire, netstring]
  simp [wire, Numeral.write]

theorem proper_wire (h : env.Sendable) (hbody : body.length < Numeral.bound)
    (hcount : (HeaderBlock.encode (headers env body)).length < 10 ^ 10)
    (hlimit : (HeaderBlock.encode (headers env body)).length ≤ s.maxHeaderSize)
    (hmax : body.length ≤ s.maxBodySize)
    (hversion : s.requireScgiHeader → (HeaderName.scgi, "1") ∈ env.entries) :
    (wire env body).Proper s := by
  rw [Wire.proper_iff headers_wire, length_wire, size_wire, Numeral.value_write]
  exact ⟨Numeral.isDigit_of_mem_write, Numeral.write_ne_nil, Numeral.length_write_le hcount, rfl,
    hlimit, fits_headers h, Numeral.read?_write hbody, hmax,
    fun hs => List.mem_cons_of_mem _ (hversion hs)⟩

theorem delivers_wire {limit : Nat} (h : env.Sendable) (hbody : body.length < Numeral.bound)
    (hcount : (HeaderBlock.encode (headers env body)).length < 10 ^ 10)
    (hlimit : (HeaderBlock.encode (headers env body)).length ≤ limit)
    (hc : chunks.flatten = (wire env body).bytes ++ tail) :
    Reader.Delivers limit chunks (headers env body) body tail := by
  let s : Settings :=
    { maxHeaderSize := limit, maxBodySize := body.length, requireScgiHeader := false }
  have hw : (wire env body).Proper s :=
    proper_wire h hbody hcount hlimit (Nat.le_refl _) nofun
  let request : Request := ⟨⟨headers env body, (fits_headers h).nodup⟩, body⟩
  have hr : (wire env body).Spells request := ⟨headers_wire, rfl⟩
  exact Wire.delivers hw hr hc

/-- What a client sends is read back: in whatever pieces it comes and whatever
follows it, a reader delivers the headers in their order and the body. As for any
string of bytes in memory, the length of the body is a machine word. -/
theorem encode_delivers {limit : Nat} (h : env.Sendable) (hbody : body.length < Numeral.bound)
    (hcount : (HeaderBlock.encode (headers env body)).length ≤ 9999999999)
    (hlimit : (HeaderBlock.encode (headers env body)).length ≤ limit) :
    ∃ bytes, encode env body = .ok bytes ∧
      ∀ chunks tail, chunks.flatten = bytes ++ tail →
        Reader.Delivers limit chunks
          ((HeaderName.contentLength, toString body.length) :: env.entries) body tail := by
  refine ⟨_, encode_of_sendable h, fun chunks tail hc => ?_⟩
  rw [← bytes_wire] at hc
  exact delivers_wire h hbody (by omega) hlimit hc

theorem encode_delivers_empty_value :
    let env : Environment :=
      { entries := [(HeaderName.scgi, "1"), ("QUERY_STRING", "")], nodup := by decide }
    env.Sendable ∧ ∃ bytes, encode env (Utf8.encode "0,") = .ok bytes ∧
      ∀ chunks tail, chunks.flatten = bytes ++ tail →
        Reader.Delivers 38 chunks
          [(HeaderName.contentLength, "2"), (HeaderName.scgi, "1"), ("QUERY_STRING", "")]
          (Utf8.encode "0,") tail := by
  intro env
  have h : env.Sendable := ⟨by decide, by decide, by decide⟩
  have hlen : (HeaderBlock.encode (headers env (Utf8.encode "0,"))).length = 38 := by decide
  exact ⟨h, encode_delivers h (by decide) (by omega) (by omega)⟩

end Request

namespace Wire

variable {w w' : Wire} {rest : Environment}

theorem length_block_le (hs : w.size.length ≤ w'.size.length) (ho : w.others = w'.others) :
    w.block.length ≤ w'.block.length := by
  simp only [block, headers, ho, List.flatMap_cons, List.length_append, List.length_cons]
  omega

theorem length_block_lt (hw : w.Proper s) : w.block.length < 10 ^ 10 := by
  rw [← hw.length_value]
  calc Numeral.value w.length
    _ < 10 ^ w.length.length := Numeral.value_lt hw.length_digits
    _ ≤ 10 ^ 10 := Nat.pow_le_pow_right (by omega) hw.length_count.2

theorem length_body_lt (hw : w.Proper s) : w.body.length < Numeral.bound :=
  Numeral.lt_bound_iff.mpr (Nat.le_min.mp hw.body_fits).2

/-- Without its first header, an accepted environment is one that a client may send. -/
theorem exists_sendable (hw : w.Proper s) (h : w.Spells request) : ∃ value rest,
    request.env.entries = (HeaderName.contentLength, value) :: Environment.entries rest ∧
      rest.Sendable ∧ rest.entries.map Utf8.encodePair = w.others := by
  obtain ⟨value, others, hfirst, -, hothers⟩ := exists_first h
  obtain ⟨-, -, -, -, -, hfits, -⟩ := (proper_iff h.1).mp hw
  rw [hfirst] at hfits
  have hnodup : (others.map (·.1)).Nodup := (List.nodup_cons.mp hfits.nodup).2
  have hvalue : '\x00' ∉ value.toList := (hfits.no_nul _ List.mem_cons_self).2
  exact ⟨value, ⟨others, hnodup⟩, hfirst, (HeaderBlock.fits_cons_iff hvalue).mp hfits, hothers⟩

theorem length_block_wire_le (hw : w.Proper s) (ho : rest.entries.map Utf8.encodePair = w.others) :
    (Request.wire rest w.body).block.length ≤ w.block.length := by
  apply length_block_le
  · have hle := Numeral.length_write_value_le hw.size_ne hw.size_digits
    rwa [hw.size_value] at hle
  · exact ho

theorem proper_wire_of_proper (hw : w.Proper s) (h : w.Spells request) {value : String}
    (he : request.env.entries = (HeaderName.contentLength, value) :: rest.entries)
    (hr : rest.Sendable) (ho : rest.entries.map Utf8.encodePair = w.others) :
    (Request.wire rest w.body).Proper s := by
  obtain ⟨-, -, -, -, -, -, -, hmax, hversion⟩ := (proper_iff h.1).mp hw
  have hle := length_block_wire_le hw ho
  rw [Request.block_wire] at hle
  refine Request.proper_wire hr (length_body_lt hw) (hle.trans_lt (length_block_lt hw))
    (hle.trans hw.block_fits) hmax fun hs => ?_
  have hm := hversion hs
  rw [he, List.mem_cons] at hm
  rcases hm with hfirst | hrest
  · have hne : HeaderName.scgi ≠ HeaderName.contentLength := by decide
    exact absurd (congrArg Prod.fst hfirst) hne
  · exact hrest

/-- Sent again, a request has the same bytes exactly if both its numbers came
without leading zeros. -/
theorem wire_eq_iff (hw : w.Proper s) (ho : rest.entries.map Utf8.encodePair = w.others) :
    Request.wire rest w.body = w ↔ Numeral.IsPlain w.length ∧ Numeral.IsPlain w.size := by
  constructor
  · intro h
    rw [← h, Request.length_wire, Request.size_wire]
    exact ⟨Numeral.isPlain_write, Numeral.isPlain_write⟩
  · rintro ⟨hl, hs⟩
    have hsize : Numeral.write w.body.length = w.size := by
      rw [← hw.size_value]
      exact (Numeral.write_value_eq_iff hw.size_ne hw.size_digits).mpr hs
    have hblock : HeaderBlock.encode (Request.headers rest w.body) = w.block := by
      rw [← Request.block_wire]
      simp only [block, headers, Request.wire, hsize, ho]
    have hlength : Numeral.write w.block.length = w.length := by
      rw [← hw.length_value]
      have hne := List.ne_nil_of_length_pos hw.length_count.1
      exact (Numeral.write_value_eq_iff hne hw.length_digits).mpr hl
    rw [Request.wire, hblock, hlength, hsize, ho]

end Wire

namespace Connection

/-- An accepted request can be sent again, without its first header, which the
client derives. What is sent is read back as that request, but for leading zeros
in the first header, and it is what came in exactly if neither number had any. -/
theorem encode_accepted (h : Stage.run s chunks = .accepted request) :
    ∃ w tail value rest bytes,
      chunks.flatten = Wire.bytes w ++ tail ∧ w.Proper s ∧ w.Spells request ∧
      request.env.entries = (HeaderName.contentLength, value) :: Environment.entries rest ∧
      Request.encode rest request.body = .ok bytes ∧
      (∀ limit chunks', (HeaderBlock.encode (Request.headers rest request.body)).length ≤ limit →
        chunks'.flatten = bytes → Reader.Delivers limit chunks'
          ((HeaderName.contentLength, toString request.body.length) :: rest.entries)
          request.body []) ∧
      (bytes = w.bytes ↔ Numeral.IsPlain w.length ∧ Numeral.IsPlain w.size) := by
  rw [Stage.run_eq_step] at h
  obtain ⟨w, tail, hsent, hw, hspells⟩ := Wire.exists_of_accepted h
  obtain ⟨value, rest, he, hr, ho⟩ := Wire.exists_sendable hw hspells
  have hproper := Wire.proper_wire_of_proper hw hspells he hr ho
  have hblock := Wire.length_block_lt hproper
  rw [Request.block_wire] at hblock
  have hw_body : request.body = w.body := hspells.2
  refine ⟨w, tail, value, rest, _, hsent, hw, hspells, he, Request.encode_of_sendable hr, ?_, ?_⟩
  · intro limit chunks' hlimit hc
    rw [hw_body] at hlimit hc ⊢
    rw [← Request.bytes_wire] at hc
    exact Request.delivers_wire hr (Wire.length_body_lt hw) hblock hlimit
      (hc.trans (List.append_nil _).symm)
  · rw [hw_body, ← Request.bytes_wire, ← Wire.wire_eq_iff hw ho]
    constructor
    · intro hbytes
      exact (Wire.bytes_append_inj hproper hw (congrArg (· ++ []) hbytes)).1
    · exact congrArg Wire.bytes

theorem encode_accepted_padded :
    ∃ request rest bytes, Stage.run {} [Wire.padded.bytes] = .accepted request ∧
      Request.encode rest request.body = .ok bytes ∧ bytes ≠ Wire.padded.bytes := by
  obtain ⟨request, hr⟩ := Wire.exists_spelled Wire.proper_padded
  have hrun : Stage.run {} [Wire.padded.bytes] = .accepted request := by
    rw [Stage.run_eq_step, List.flatten_singleton, ← List.append_nil Wire.padded.bytes]
    exact Wire.accepted_of_proper Wire.proper_padded hr
  obtain ⟨w, tail, _, rest, bytes, hsent, hw, -, -, hencode, -, hbytes⟩ := encode_accepted hrun
  rw [List.flatten_singleton, ← List.append_nil Wire.padded.bytes] at hsent
  obtain ⟨rfl, -⟩ := Wire.bytes_append_inj Wire.proper_padded hw hsent
  have hplain : ¬ Numeral.IsPlain Wire.padded.length := by unfold Numeral.IsPlain; decide
  exact ⟨request, rest, bytes, hrun, hencode, fun he => hplain (hbytes.mp he).1⟩

end Connection

end ScgiStub
