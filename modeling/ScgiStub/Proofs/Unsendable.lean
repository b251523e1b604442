import ScgiStub.Proofs.Conservation
import ScgiStub.Proofs.RoundTrip

/-! # What a client refuses to send

A client refuses an environment that sets the size of the body itself or has a NUL in
it, and neither could be read back. An empty name could not be read back either, and that
it sends.
-/

namespace ScgiStub

variable {env : Environment} {body tail block rest : Bytes} {chunks : List Bytes} {limit : Nat}

theorem Reader.scanLength_netstring (h : block.length < 10 ^ 10) :
    scanLength limit (Request.netstring block ++ rest) =
      if limit < block.length then .error (.headersTooLarge block.length limit)
      else .ok (some (block.length, block ++ 0x2C :: rest)) := by
  have hcount : ¬ maxDigits < (Numeral.write block.length).length :=
    Nat.not_lt.mpr (Numeral.length_write_le h)
  have hbytes : Request.netstring block ++ rest =
      Numeral.write block.length ++ 0x3A :: (block ++ 0x2C :: rest) := by
    simp [Request.netstring, Numeral.write]
  rw [hbytes, scanLength_stop Numeral.isDigit_of_mem_write (by decide),
    if_neg hcount, if_neg (by simp [Numeral.write_ne_nil]), Numeral.value_write]

theorem Reader.feed_decode_fault {sent : Bytes} {fault : HeaderBlock.Fault}
    (hscan : scanLength limit sent = .ok (some (block.length, block ++ rest)))
    (hdecode : HeaderBlock.decode ∅ block = (.error fault, env)) :
    feed { limit } sent = (.error (.headers fault),
      { limit, phase := .headers block.length, pending := rest, request := { env } }) := by
  have hfeed : feed { limit } sent = takeLength { limit, pending := sent } := rfl
  simp [hfeed, takeLength, hscan, takeHeaders, hdecode]

namespace HeaderBlock

theorem addFields_unnamed {pairs : List (String × String)}
    (hnodup : (env.names ++ pairs.map (·.1)).Nodup) (h : "" ∈ pairs.map (·.1)) :
    ∃ env', addFields env (fieldsOf pairs) = (.error .malformed, env') := by
  induction pairs generalizing env with
  | nil => cases h
  | cons p pairs ih =>
    obtain ⟨name, value⟩ := p
    change ∃ env', addFields env (Utf8.encode name :: Utf8.encode value :: fieldsOf pairs) = _
    by_cases hname : name = ""
    · exact ⟨env, by simp [addFields, addPair, hname]⟩
    · have hfresh : name ∉ env.names := fun hm =>
        (List.nodup_append.mp hnodup).2.2 name hm name List.mem_cons_self rfl
      have hpair := addPair_ok_iff.mpr ⟨name, value, rfl, rfl, hname, hfresh, rfl⟩
      rw [addFields, hpair]
      refine ih ?_ ((List.mem_cons.mp h).resolve_left (Ne.symm hname))
      rw [Environment.names_insert_of_not_mem _ hfresh]
      simpa using hnodup

end HeaderBlock

namespace Reader

variable {r r' : Reader} {head fed : Bytes}

theorem PastComma.drive (hr : PastComma head fed r) :
    (r.drive chunks).2.request.env = r.request.env := by
  induction chunks generalizing r fed with
  | nil => rfl
  | cons chunk chunks ih =>
    rcases hf : r.feed chunk with ⟨said, r'⟩
    obtain ⟨hsaid, henv, hr'⟩ := hr.feed hf
    rw [drive_cons_of_ne hf hsaid, ← henv]
    exact ih hr'

theorem BeforeComma.drive (hr : BeforeComma fed r)
    (hno_error : ∀ fault, .error fault ∉ (r.drive chunks).1)
    (hheaders : .ok .headersDone ∈ (r.drive chunks).1) :
    ∃ sent r', r.feed sent = (.ok .headersDone, r') ∧
      (r.drive chunks).2.request.env = r'.request.env := by
  induction chunks generalizing r fed with
  | nil => cases hheaders
  | cons chunk chunks ih =>
    rcases hf : r.feed chunk with ⟨fault | said, r'⟩
    · rw [drive_cons_of_ne hf (by simp)] at hno_error
      exact absurd List.mem_cons_self (hno_error fault)
    · cases said with
      | incomplete =>
        have hr' := ((hr.feed hf).resolve_right (by simp)).2
        rw [drive_cons_of_ne hf (by simp)] at hno_error hheaders ⊢
        obtain ⟨sent, r₁, hsent, henv⟩ := ih hr'
          (fun fault hm => hno_error fault (List.mem_cons_of_mem _ hm)) (by simpa using hheaders)
        exact ⟨chunk ++ sent, r₁, by rw [feed_append, hf]; exact hsent, henv⟩
      | headersDone =>
        obtain ⟨-, head, hr'⟩ := (hr.feed hf).resolve_left (by simp)
        rw [drive_cons_of_headersDone hf]
        exact ⟨chunk, r', hf, hr'.drive⟩
      | done => exact absurd rfl (feed_early hr.in_head hf).not_done

theorem fits_of_delivers {headers : List (String × String)}
    (h : Delivers limit chunks headers body tail) : HeaderBlock.Fits ∅ headers := by
  have hheaders : .ok .headersDone ∈ (drive { limit } chunks).1 :=
    List.count_pos_iff.mp (h.headers_once ▸ Nat.one_pos)
  obtain ⟨sent, r, hsent, henv⟩ := beforeComma_fresh.drive h.no_error hheaders
  obtain ⟨_, _, -, -, -, -, -, -, hfits, -⟩ := feed_headersDone_iff.mp hsent
  rwa [← henv, h.entries] at hfits

end Reader

namespace Request

variable {bytes : Bytes}

theorem sendable_iff : env.Sendable ↔
    (∃ bytes, encode env body = .ok bytes) ∧ "" ∉ env.names := by
  simp only [encode_eq_ok_iff, exists_eq_right]
  constructor
  · rintro ⟨hfirst, hname, hzero⟩
    exact ⟨⟨hfirst, hzero⟩, hname⟩
  · rintro ⟨⟨hfirst, hzero⟩, hname⟩
    exact ⟨hfirst, hname, hzero⟩

/-- What is sent with an empty name in it gets no further than the header block. -/
theorem feed_unnamed (hbytes : encode env body = .ok bytes) (hname : "" ∈ env.names)
    (hcount : (HeaderBlock.encode (headers env body)).length < 10 ^ 10)
    (hlimit : (HeaderBlock.encode (headers env body)).length ≤ limit) :
    (Reader.feed { limit } (bytes ++ tail)).1 = .error (.headers .malformed) := by
  obtain ⟨⟨hfirst, hzero⟩, rfl⟩ := encode_eq_ok_iff.mp hbytes
  have hnodup : ((∅ : Environment).names ++ (headers env body).map (·.1)).Nodup :=
    List.nodup_cons.mpr ⟨hfirst, env.nodup⟩
  have hunnamed : "" ∈ (headers env body).map (·.1) := List.mem_cons_of_mem _ hname
  obtain ⟨env', hadd⟩ := HeaderBlock.addFields_unnamed hnodup hunnamed
  have hdecode : HeaderBlock.decode ∅ (HeaderBlock.encode (headers env body)) =
      (.error .malformed, env') := by
    rw [HeaderBlock.decode, HeaderBlock.split_encode ((no_nul_headers_iff body).mpr hzero)]
    exact hadd
  have hscan : Reader.scanLength limit (netstring _ ++ (body ++ tail)) = _ :=
    Reader.scanLength_netstring hcount
  rw [if_neg (Nat.not_lt.mpr hlimit)] at hscan
  rw [List.append_assoc, Reader.feed_decode_fault hscan hdecode]

/-- Some bytes make a reader deliver an environment and a body exactly if a client sends
them and no name is empty. What a client sends is then read back, and with an empty name
in it, it is refused as malformed. As for any string of bytes in memory, the length of the
body is a machine word. -/
theorem delivers_iff_encode_ok (hbody : body.length < Numeral.bound)
    (hcount : (HeaderBlock.encode (headers env body)).length ≤ 9999999999)
    (hlimit : (HeaderBlock.encode (headers env body)).length ≤ limit) :
    ((∃ chunks tail, Reader.Delivers limit chunks
        ((HeaderName.contentLength, toString body.length) :: env.entries) body tail) ↔
      (∃ bytes, encode env body = .ok bytes) ∧ "" ∉ env.names) ∧
    ∀ bytes, encode env body = .ok bytes →
      (∀ chunks tail, chunks.flatten = bytes ++ tail → "" ∉ env.names → Reader.Delivers limit chunks
        ((HeaderName.contentLength, toString body.length) :: env.entries) body tail) ∧
      ("" ∈ env.names →
        ∀ tail, (Reader.feed { limit } (bytes ++ tail)).1 = .error (.headers .malformed)) := by
  have hcount' : (HeaderBlock.encode (headers env body)).length < 10 ^ 10 := by omega
  have hdelivers : env.Sendable → ∀ chunks tail,
      chunks.flatten = netstring (HeaderBlock.encode (headers env body)) ++ body ++ tail →
      Reader.Delivers limit chunks (headers env body) body tail := fun h chunks tail hc =>
    delivers_wire h hbody hcount' hlimit (by rwa [bytes_wire])
  rw [← sendable_iff]
  refine ⟨⟨?_, ?_⟩, fun bytes hbytes => ⟨?_, ?_⟩⟩
  · rintro ⟨chunks, tail, h⟩
    exact fits_headers_iff.mp (Reader.fits_of_delivers h)
  · intro h
    have hsent :=
      hdelivers h [netstring (HeaderBlock.encode (headers env body)) ++ body] [] (by simp)
    exact ⟨_, [], hsent⟩
  · intro chunks tail hc hname
    obtain ⟨-, rfl⟩ := encode_eq_ok_iff.mp hbytes
    exact hdelivers (sendable_iff.mpr ⟨⟨_, hbytes⟩, hname⟩) chunks tail hc
  · intro hname tail
    exact feed_unnamed hbytes hname hcount' hlimit

theorem delivers_iff_encode_ok_empty_value :
    let env : Environment := { entries := [("QUERY_STRING", "")], nodup := by decide }
    let body := Utf8.encode "x"
    ∃ bytes, encode env body = .ok bytes ∧ "" ∉ env.names ∧
      Reader.Delivers 31 [bytes]
        [(HeaderName.contentLength, "1"), ("QUERY_STRING", "")] body [] := by
  intro env body
  have hlen : (HeaderBlock.encode (headers env body)).length = 31 := by decide
  have hname : "" ∉ env.names := by decide
  obtain ⟨bytes, hbytes⟩ : ∃ bytes, encode env body = .ok bytes :=
    ⟨_, encode_eq_ok_iff.mpr ⟨by decide, rfl⟩⟩
  have hbody : body.length < Numeral.bound := by decide
  have hcount : (HeaderBlock.encode (headers env body)).length ≤ 9999999999 := by omega
  have hlimit : (HeaderBlock.encode (headers env body)).length ≤ 31 := by omega
  obtain ⟨-, hsent⟩ := delivers_iff_encode_ok hbody hcount hlimit
  have hdelivers := (hsent bytes hbytes).1 [bytes] [] (by simp) hname
  have hsize : toString body.length = "1" := by decide
  rw [hsize] at hdelivers
  exact ⟨bytes, hbytes, hname, hdelivers⟩

theorem encode_ok_unnamed :
    let env : Environment := { entries := [("", "x")], nodup := by decide }
    ∃ bytes, encode env [] = .ok bytes ∧
      (∀ limit chunks tail, ¬ Reader.Delivers limit chunks (headers env []) [] tail) ∧
      (Reader.feed { limit := 8192 } bytes).1 = .error (.headers .malformed) := by
  intro env
  refine ⟨_, encode_eq_ok_iff.mpr ⟨by decide, rfl⟩, fun limit chunks tail h => ?_,
    by decide +kernel⟩
  exact (Reader.fits_of_delivers h).name_ne ("", "x") (by simp [headers, env]) rfl

end Request

end ScgiStub
