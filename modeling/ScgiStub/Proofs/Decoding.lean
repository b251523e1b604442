import ScgiStub.Proofs.Responses
import ScgiStub.Proofs.RoundTrip

/-! # What a client makes of a reply

A client reads a reply with a status line back as it was meant, unless the text
after the code is too long for it or has a line break. The server sets no bound to
that text: it quotes what it was sent, and that may be as long as a header block.
-/

namespace ScgiStub

variable {s : Settings} {now : Moment} {status : Status} {info value : String}
  {body bytes : Bytes} {chunks : List Bytes} {n : Nat}

namespace Quoted

theorem length_le_encode (cs : List Char) :
    cs.length ≤ (cs.flatMap String.utf8EncodeChar).length := by
  induction cs with
  | nil => exact Nat.le_refl 0
  | cons c cs ih =>
    have hc := c.utf8Size_pos
    rw [List.flatMap_cons, List.length_append, String.length_utf8EncodeChar, List.length_cons]
    omega

theorem utf8Size_le_escape (c : Char) :
    c.utf8Size ≤ ((escape c).flatMap String.utf8EncodeChar).length := by
  unfold escape
  split
  any_goals decide
  split
  · simp [String.length_utf8EncodeChar]
  · refine c.utf8Size_le_four.trans (Nat.le_trans ?_ (length_le_encode _))
    simp only [List.cons_append, List.length_cons, List.length_append, List.length_nil]
    omega

theorem length_encode_le_escape (cs : List Char) : (cs.flatMap String.utf8EncodeChar).length ≤
    ((cs.flatMap escape).flatMap String.utf8EncodeChar).length := by
  induction cs with
  | nil => exact Nat.le_refl 0
  | cons c cs ih =>
    have hc := utf8Size_le_escape c
    simp only [List.flatMap_cons, List.flatMap_append, List.length_append,
      String.length_utf8EncodeChar]
    omega

theorem utf8ByteSize_le_quote (text : String) :
    text.utf8ByteSize + 2 ≤ (quote text).utf8ByteSize := by
  have htext := length_encode_le_escape text.toList
  have hmark : (String.utf8EncodeChar '"').length = 1 := by decide
  rw [← Utf8.length_encode, ← Utf8.length_encode, Utf8.encode, Utf8.encode, quote,
    String.toList_ofList]
  simp only [List.cons_append, List.flatMap_cons, List.flatMap_append, List.length_append,
    List.flatMap_nil, List.length_nil, hmark]
  omega

end Quoted

namespace Response

theorem unbroken_of_oneLine (h : OneLine info) : Unbroken (Utf8.encode info) :=
  fun hbreak => h.not_mem_encode.1 (hbreak.subset List.mem_cons_self)

theorem ofBytes_framed (h : Reply.Framed bytes status info body) : ofBytes bytes =
    if info.utf8ByteSize ≤ maxInfoSize then .ok ⟨status.code, info, body⟩
    else .error (.infoTooLong info.utf8ByteSize) := by
  rw [h.bytes_eq, ← Reply.wire_status]
  exact ofBytes_wire (unbroken_of_oneLine h.oneLine)

end Response

namespace Connection

theorem Rejection.ofBytes_wire (r : Rejection) : Response.ofBytes r.reply.wire =
    if r.message.utf8ByteSize ≤ Response.maxInfoSize then
      .ok ⟨Status.badRequest.code, r.message, []⟩
    else .error (.infoTooLong r.message.utf8ByteSize) :=
  Response.ofBytes_framed (Reply.framed_wire r.oneLine_message)

/-- A rejection is read back with its code and its reason exactly if the reason is not
too long. -/
theorem ofBytes_rejected {rejection : Rejection} (h : Stage.run s chunks = .rejected rejection) :
    let response : Response := ⟨59, rejection.message, []⟩
    response.status? = some .badRequest ∧
      Response.ofBytes ((Stage.run s chunks).written s now) =
        if rejection.message.utf8ByteSize ≤ Response.maxInfoSize then .ok response
        else .error (.infoTooLong rejection.message.utf8ByteSize) := by
  rw [h]
  constructor
  · exact Status.ofCode?_code .badRequest
  · exact rejection.ofBytes_wire

theorem ofBytes_rejected_invalidLength :
    let chunks := [Utf8.encode "x:"]
    let response : Response := ⟨59, "invalid netstring length", []⟩
    Stage.run {} chunks = .rejected (.unreadable .invalidLength) ∧
      response.status? = some .badRequest ∧
      Response.ofBytes ((Stage.run {} chunks).written {} ⟨0⟩) = .ok response := by
  intro chunks response
  have h : Stage.run {} chunks = .rejected (.unreadable .invalidLength) := by decide
  obtain ⟨hstatus, hread⟩ := ofBytes_rejected (s := {}) h
  exact ⟨h, hstatus, hread.trans (by decide)⟩

theorem check_malformed {env : Environment} {others : List (String × String)}
    (he : env.entries = (HeaderName.contentLength, value) :: others)
    (hread : Numeral.read? (Utf8.encode value) = none) :
    s.check env = .error (.malformedContentLength value) := by
  simp [Settings.check, Environment.checkContentLength, Environment.first?, he, hread]

theorem rejected_malformed {env : Environment} (tail : Bytes) (henv : env.Sendable)
    (hread : Numeral.read? (Utf8.encode value) = none) (hnul : '\x00' ∉ value.toList)
    (hlimit : (HeaderBlock.encode ((HeaderName.contentLength, value) :: env.entries)).length ≤
      s.maxHeaderSize)
    (hcount : (HeaderBlock.encode ((HeaderName.contentLength, value) :: env.entries)).length <
      10 ^ 10)
    (hc : chunks.flatten = Request.netstring
      (HeaderBlock.encode ((HeaderName.contentLength, value) :: env.entries)) ++ tail) :
    Stage.run s chunks = .rejected (.refused (.malformedContentLength value)) := by
  have hfits := (HeaderBlock.fits_cons_iff hnul).mpr henv
  let headers : Environment := ⟨_, hfits.nodup⟩
  let reader : Reader :=
    { limit := s.maxHeaderSize, phase := .body, pending := tail, request := { env := headers } }
  have hfeed : Reader.feed { limit := s.maxHeaderSize } chunks.flatten =
      (.ok .headersDone, reader) := by
    rw [hc]
    exact Reader.feed_netstring headers hfits hcount hlimit
  rw [Stage.run_eq_step, Stage.start, Stage.step, hfeed, Stage.ofOutcome,
    check_malformed rfl hread]

/-- Every long enough value that is no size gets a rejection that is not read back. -/
theorem ofBytes_malformed_long (now : Moment)
    (h : Stage.run s chunks = .rejected (.refused (.malformedContentLength value)))
    (hlong : Response.maxInfoSize < value.utf8ByteSize + 27) :
    ∃ size, Response.maxInfoSize < size ∧
      Response.ofBytes ((Stage.run s chunks).written s now) = .error (.infoTooLong size) := by
  have hsize : value.utf8ByteSize + 27 ≤
      (Rejection.refused (.malformedContentLength value)).message.utf8ByteSize := by
    change _ ≤ ("malformed CONTENT_LENGTH " ++ Quoted.quote value).utf8ByteSize
    have hword : "malformed CONTENT_LENGTH ".utf8ByteSize = 25 := by decide
    have hquote := Quoted.utf8ByteSize_le_quote value
    rw [String.utf8ByteSize_append, hword]
    omega
  refine ⟨_, Nat.lt_of_lt_of_le hlong hsize, ?_⟩
  rw [h]
  exact (Rejection.ofBytes_wire _).trans (if_neg (by omega))

def letters (n : Nat) : String :=
  String.ofList (List.replicate n 'x')

theorem mem_letters_iff {c : Char} : c ∈ (letters n).toList ↔ n ≠ 0 ∧ c = 'x' := by
  rw [letters, String.toList_ofList, List.mem_replicate]

theorem utf8ByteSize_letters (n : Nat) : (letters n).utf8ByteSize = n := by
  have hx : 'x'.utf8Size = 1 := by decide
  rw [← Utf8.length_encode, Utf8.encode, letters, String.toList_ofList]
  simp [hx]

theorem read?_letters (hn : n ≠ 0) : Numeral.read? (Utf8.encode (letters n)) = none := by
  refine Option.eq_none_iff_forall_ne_some.mpr fun size h => ?_
  have hall := List.all_eq_true.mp (Numeral.read?_eq_some_iff.mp h).2.1
  have hx : 'x' ∈ (letters n).toList := mem_letters_iff.mpr ⟨hn, rfl⟩
  exact absurd (hall _ ((Utf8.mem_encode_iff (c := 'x') (by decide)).mpr hx)) (by decide)

theorem ofBytes_rejected_long_value :
    let value := letters 998
    let sent := Request.netstring (HeaderBlock.encode [(HeaderName.contentLength, value)])
    Stage.run {} [sent] = .rejected (.refused (.malformedContentLength value)) ∧
      ∀ response, Response.ofBytes ((Stage.run {} [sent]).written {} ⟨0⟩) ≠ .ok response := by
  intro value sent
  have hvalue : value.utf8ByteSize = 998 := utf8ByteSize_letters 998
  have hblock : (HeaderBlock.encode [(HeaderName.contentLength, value)]).length = 1014 := by
    have hname : (Utf8.encode HeaderName.contentLength).length = 14 := by decide
    simp only [HeaderBlock.encode_cons, HeaderBlock.encode_nil, HeaderBlock.field,
      List.length_append, List.length_singleton, List.length_nil, hname, Utf8.length_encode, hvalue]
  have hempty : Environment.Sendable ∅ := ⟨by decide, by decide, by decide⟩
  have h : Stage.run {} [sent] = .rejected (.refused (.malformedContentLength value)) := by
    refine rejected_malformed [] hempty (read?_letters (by decide)) ?_ ?_ ?_ ?_
    · exact fun hz => absurd (mem_letters_iff.mp hz).2 (by decide)
    · exact hblock.trans_le (by decide)
    · exact hblock.trans_lt (by decide)
    · simp [sent]
  have hlong : Response.maxInfoSize < value.utf8ByteSize + 27 := by
    rw [hvalue]
    decide
  obtain ⟨size, -, herror⟩ := ofBytes_malformed_long ⟨0⟩ h hlong
  refine ⟨h, fun response hok => ?_⟩
  rw [herror] at hok
  cases hok

end Connection

/-! ## Any text after the code -/

namespace Response

/-- A reply is read back as it was meant exactly if the text after its code has no line
break and is not too long. A text that is too long is told by its size, and one with a line
break ends at the first, with the rest of it in front of the body. -/
theorem ofBytes_wire_iff (status : Status) (info : String) (body : Bytes) :
    let bytes := (Reply.status status info body).wire
    let response : Response := ⟨status.code, info, body⟩
    (ofBytes bytes = .ok response ∧ response.status? = some status ↔
      ¬ ['\r', '\n'] <:+: info.toList ∧ info.utf8ByteSize ≤ 1024) ∧
    (¬ ['\r', '\n'] <:+: info.toList → 1024 < info.utf8ByteSize →
      ofBytes bytes = .error (.infoTooLong info.utf8ByteSize)) ∧
    ∀ a b, info = a ++ "\r\n" ++ b → ¬ ['\r', '\n'] <:+: a.toList →
      ofBytes bytes =
        if a.utf8ByteSize ≤ 1024 then .ok ⟨status.code, a, Utf8.encode b ++ 0x0D :: 0x0A :: body⟩
        else .error (.infoTooLong a.utf8ByteSize) := by
  intro bytes response
  rw [← unbroken_encode_iff]
  refine ⟨⟨?_, ?_⟩, ?_, ?_⟩
  · rintro ⟨h, -⟩
    obtain ⟨line, hbreak, hs, hshort⟩ := ofBytes_eq_ok_iff.mp h
    exact ⟨hs.unbroken_iff.mp (firstBreak_iff.mp hbreak).2, hshort⟩
  · rintro ⟨hinfo, hshort⟩
    constructor
    · exact (ofBytes_wire hinfo).trans (if_pos hshort)
    · exact Status.ofCode?_code status
  · intro hinfo hlong
    exact (ofBytes_wire hinfo).trans (if_neg (by omega))
  · rintro a b rfl ha
    have hbytes : bytes = _ := wire_break a b
    rw [hbytes]
    exact ofBytes_wire (unbroken_encode_iff.mpr ha)

theorem ofBytes_wire_two_lines :
    let body := Utf8.encode "\nbye"
    let long := Connection.letters 1025
    ofBytes (Reply.status .gone "away\r\r\nfor good" body).wire =
      .ok ⟨52, "away\r", Utf8.encode "for good\r\n\nbye"⟩ ∧
    ofBytes (Reply.status .gone "away\r" body).wire = .ok ⟨52, "away\r", body⟩ ∧
    ofBytes (Reply.status .gone long body).wire = .error (.infoTooLong long.utf8ByteSize) := by
  intro body long
  obtain ⟨-, -, htwo⟩ := ofBytes_wire_iff .gone "away\r\r\nfor good" body
  obtain ⟨hone, -, -⟩ := ofBytes_wire_iff .gone "away\r" body
  obtain ⟨-, hlong, -⟩ := ofBytes_wire_iff .gone long body
  have hlong' : ¬ ['\r', '\n'] <:+: long.toList := by
    intro h
    exact absurd (Connection.mem_letters_iff.mp (h.subset List.mem_cons_self)).2 (by decide)
  have hsize : long.utf8ByteSize = 1025 := Connection.utf8ByteSize_letters 1025
  refine ⟨?_, (hone.mpr (by decide)).1, hlong hlong' (by omega)⟩
  exact (htwo "away\r" "for good" (by decide) (by decide)).trans (by decide)

end Response

end ScgiStub
