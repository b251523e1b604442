import ScgiStub.Proofs.Regrouping

/-! # After a fault

Most faults are final: the reader says nothing else, whatever else comes. A header block
that is refused is not one of them, since the reader has dropped it and takes the next
bytes for another one.
-/

namespace ScgiStub

namespace Reader

variable {r r' : Reader} {data fed : Bytes} {pieces : List Bytes} {size : Nat} {fault : Fault}
  {wrong : HeaderBlock.Fault}

/-! ## Faults that stay -/

/-- Going on, the reader finds this fault and is left as it is. -/
def Stuck (r : Reader) (fault : Fault) : Prop :=
  r.resume = (.error fault, r)

theorem Stuck.push (h : r.Stuck fault) (data : Bytes) : (r.push data).Stuck fault := by
  rw [Stuck] at h
  rw [Stuck, resume_push, h]
  rfl

theorem Stuck.feedAll (h : r.Stuck fault) (pieces : List Bytes) : r.feedAll pieces =
    (List.replicate pieces.length (.error fault), r.push pieces.flatten) := by
  induction pieces generalizing r with
  | nil => simp [Reader.feedAll]
  | cons piece pieces ih =>
    have hpush := h.push piece
    rw [feedAll_cons hpush, ih hpush, push_push, List.flatten_cons, List.length_cons,
      List.replicate_succ]

theorem takeComma_stuck (hp : r.phase = .comma) (h : r.takeComma = (.error fault, r')) :
    r'.Stuck fault := by
  have hr' : r' = r := by
    rcases takeComma_cases h with ⟨_, hs, _⟩ | ⟨_, _, hs, _⟩ | ⟨_, _, _, _, _, hr'⟩
    · cases hs
    · cases hs
    · exact hr'
  rw [Stuck, hr', resume, hp, ← hr']
  exact hr' ▸ h

theorem takeHeaders_stuck (h : r.takeHeaders size = (.error fault, r'))
    (hf : ∀ wrong, fault ≠ .headers wrong) : r'.Stuck fault := by
  rcases takeHeaders_cases h with ⟨_, hs, _⟩ | ⟨_, _, wrong, _, _, _, _, hs, _⟩ |
    ⟨_, _, _, _, _, _, hc⟩
  · cases hs
  · exact absurd (Except.error.inj hs) (hf wrong)
  · exact takeComma_stuck rfl hc

theorem takeLength_stuck (hp : r.phase = .length) (h : r.takeLength = (.error fault, r'))
    (hf : ∀ wrong, fault ≠ .headers wrong) : r'.Stuck fault := by
  rcases takeLength_cases h with ⟨_, _, _, rfl⟩ | ⟨_, hs, _⟩ | ⟨_, _, _, hh⟩
  · rw [Stuck, resume, hp, h]
  · cases hs
  · exact takeHeaders_stuck hh hf

theorem takeBody_stuck (hp : r.phase = .body) (h : r.takeBody = (.error fault, r')) :
    r'.Stuck fault := by
  rcases takeBody_cases h with ⟨_, _, rfl⟩ | ⟨_, _, _, hs, _⟩ | ⟨_, _, _, hs, _⟩
  · rw [Stuck, resume, hp, h]
  · cases hs
  · cases hs

theorem feed_stuck (h : r.feed data = (.error fault, r')) (hf : ∀ wrong, fault ≠ .headers wrong) :
    r'.Stuck fault := by
  rw [feed_eq_resume, resume, phase_push] at h
  cases hp : r.phase with
  | length => rw [hp] at h; exact takeLength_stuck (r := r.push data) hp h hf
  | headers size => rw [hp] at h; exact takeHeaders_stuck h hf
  | comma => rw [hp] at h; exact takeComma_stuck (r := r.push data) hp h
  | body => rw [hp] at h; exact takeBody_stuck (r := r.push data) hp h
  | done => rw [hp] at h; cases h

/-! ## Header blocks that are refused -/

/-- The reader takes the next `size` bytes for a header block, when they have come. -/
structure Awaits (r : Reader) (size : Nat) : Prop where
  phase : r.phase = .headers size
  waits : ∀ data, (r.pending ++ data).length < size →
    r.feed data = (.ok .incomplete, { r with pending := r.pending ++ data })
  refuses : ∀ data block rest wrong env, r.pending ++ data = block ++ rest →
    block.length = size → HeaderBlock.decode r.request.env block = (.error wrong, env) →
    r.feed data =
      (.error (.headers wrong), { r with pending := rest, request := { r.request with env } })
  accepts : ∀ data block rest env, r.pending ++ data = block ++ rest →
    block.length = size → HeaderBlock.decode r.request.env block = (.ok (), env) →
    r.feed data =
      { r with phase := .comma, pending := rest, request := { r.request with env } }.resume

/-- Where the reader had come to these bytes, it has dropped the first `size` of them as a
header block that is wrong, and takes the next ones for another block. -/
structure Drops (request : Request) (size : Nat) (bytes : Bytes) (wrong : HeaderBlock.Fault)
    (r : Reader) : Prop where
  size_pos : 0 < size
  block : ∃ block, bytes = block ++ r.pending ∧ block.length = size ∧
    HeaderBlock.decode request.env block = (.error wrong, r.request.env)
  body : r.request.body = request.body
  awaits : r.Awaits size

theorem awaits_of_phase (hp : r.phase = .headers size) : r.Awaits size where
  phase := hp
  waits := by
    intro data hfew
    rw [feed, resume, hp]
    simp only [takeHeaders, if_pos hfew]
  refuses := by
    rintro data block rest wrong env hr rfl hd
    rw [feed, resume, hp]
    simp [takeHeaders, hr, hd]
  accepts := by
    rintro data block rest env hr rfl hd
    have hlong : ¬ (block ++ rest).length < block.length := by simp
    rw [feed, resume, resume, hp]
    simp only [takeHeaders, hr, if_neg hlong, List.take_left, List.drop_left, hd]

theorem takeComma_ne_headers : r.takeComma ≠ (.error (.headers wrong), r') := by
  intro h
  rcases takeComma_cases h with ⟨_, hs, _⟩ | ⟨_, _, hs, _⟩ | ⟨_, _, _, _, hs, _⟩ <;> cases hs

theorem takeBody_ne_headers : r.takeBody ≠ (.error (.headers wrong), r') := by
  intro h
  rcases takeBody_cases h with ⟨_, hs, _⟩ | ⟨_, _, _, hs, _⟩ | ⟨_, _, _, hs, _⟩ <;> cases hs

theorem takeHeaders_drops (hp : r.phase = .headers size)
    (h : r.takeHeaders size = (.error (.headers wrong), r')) :
    Drops r.request size r.pending wrong r' := by
  rcases takeHeaders_cases h with ⟨_, hs, _⟩ | ⟨block, rest, wrong', env, hr, hl, hd, hs, rfl⟩ |
    ⟨_, _, _, _, _, _, hc⟩
  · cases hs
  · obtain rfl : wrong = wrong' := Fault.headers.inj (Except.error.inj hs)
    refine ⟨?_, ⟨block, hr, hl, hd⟩, rfl, awaits_of_phase hp⟩
    by_contra hzero
    obtain rfl : block = [] := List.eq_nil_of_length_eq_zero (by omega)
    cases hd
  · exact absurd hc takeComma_ne_headers

theorem takeLength_drops (h : r.takeLength = (.error (.headers wrong), r')) :
    ∃ size digits bytes, r.pending = digits ++ 0x3A :: bytes ∧
      (∀ b ∈ digits, Numeral.isDigit b) ∧ Numeral.value digits = size ∧
      Drops r.request size bytes wrong r' := by
  rcases takeLength_cases h with ⟨fault, hs, hf, _⟩ | ⟨_, hs, _⟩ | ⟨size, bytes, hs, hh⟩
  · obtain rfl := Except.error.inj hf
    rcases scanLength_error_cases hs with hf | hf | ⟨_, hf⟩ <;> cases hf
  · cases hs
  · obtain ⟨digits, hr, hdigits, -, -, hvalue, -⟩ := scanLength_some_iff.mp hs
    exact ⟨size, digits, bytes, hr, hdigits, hvalue, takeHeaders_drops rfl hh⟩

theorem feed_drops (h : r.feed data = (.error (.headers wrong), r')) : ∃ size bytes,
    Drops r.request size bytes wrong r' ∧
      ((r.phase = .headers size ∧ r.pending ++ data = bytes) ∨
        r.phase = .length ∧ ∃ digits, r.pending ++ data = digits ++ 0x3A :: bytes ∧
          (∀ b ∈ digits, Numeral.isDigit b) ∧ Numeral.value digits = size) := by
  rw [feed_eq_resume, resume, phase_push] at h
  cases hp : r.phase with
  | length =>
    rw [hp] at h
    obtain ⟨size, digits, bytes, hr, hdigits, hvalue, hdrops⟩ := takeLength_drops h
    exact ⟨size, bytes, hdrops, .inr ⟨rfl, digits, hr, hdigits, hvalue⟩⟩
  | headers size =>
    rw [hp] at h
    exact ⟨size, _, takeHeaders_drops (r := r.push data) hp h, .inl ⟨rfl, rfl⟩⟩
  | comma =>
    rw [hp] at h
    exact absurd h takeComma_ne_headers
  | body =>
    rw [hp] at h
    exact absurd h takeBody_ne_headers
  | done =>
    rw [hp] at h
    cases h

/-! ## Whole histories -/

theorem PastComma.feedAll_keeps {head : Bytes} (hr : PastComma head fed r) (pieces : List Bytes) :
    .ok .headersDone ∉ (r.feedAll pieces).1 ∧
      (r.feedAll pieces).2.request.env = r.request.env := by
  induction pieces generalizing r fed with
  | nil => exact ⟨by simp [Reader.feedAll], rfl⟩
  | cons piece pieces ih =>
    rcases hf : r.feed piece with ⟨said, r'⟩
    obtain ⟨hsaid, henv, hr'⟩ := hr.feed hf
    obtain ⟨hlater, henv'⟩ := ih hr'
    rw [feedAll_cons hf]
    exact ⟨List.not_mem_cons_of_ne_of_not_mem hsaid.symm hlater, henv'.trans henv⟩

/-- What is said to a row of pieces: neither the end of the headers nor that of the request,
up to the one end of the headers. -/
theorem BeforeComma.feedAll_said (hr : BeforeComma fed r) (pieces : List Bytes) :
    ∃ early, .ok .headersDone ∉ early ∧ .ok .done ∉ early ∧ ((r.feedAll pieces).1 = early ∨
      ∃ late, (r.feedAll pieces).1 = early ++ .ok .headersDone :: late ∧
        .ok .headersDone ∉ late) := by
  induction pieces generalizing r fed with
  | nil => exact ⟨[], by simp, by simp, .inl rfl⟩
  | cons piece pieces ih =>
    rcases hf : r.feed piece with ⟨said, r'⟩
    have hdone := (feed_early hr.in_head hf).not_done
    rw [feedAll_cons hf]
    rcases hr.feed hf with ⟨hsaid, hr'⟩ | ⟨rfl, head, hr'⟩
    · obtain ⟨early, hheaders, hend, hall⟩ := ih hr'
      refine ⟨said :: early, List.not_mem_cons_of_ne_of_not_mem hsaid.symm hheaders,
        List.not_mem_cons_of_ne_of_not_mem hdone.symm hend, ?_⟩
      rcases hall with hall | ⟨late, hall, hlate⟩
      · exact .inl (by rw [hall])
      · exact .inr ⟨late, by rw [hall, List.cons_append], hlate⟩
    · exact ⟨[], by simp, by simp, .inr ⟨_, rfl, (hr'.feedAll_keeps pieces).1⟩⟩

theorem count_headersDone_le (limit : Nat) (pieces : List Bytes) :
    ((feedAll { limit } pieces).1.count (.ok .headersDone)) ≤ 1 := by
  obtain ⟨early, hheaders, -, hall | ⟨late, hall, hlate⟩⟩ := beforeComma_fresh.feedAll_said pieces
  · rw [hall, List.count_eq_zero.mpr hheaders]
    exact Nat.zero_le 1
  · rw [hall, List.count_append, List.count_cons_self, List.count_eq_zero.mpr hheaders,
      List.count_eq_zero.mpr hlate]

theorem headersDone_before_done {limit : Nat} {before after : List (Except Fault Progress)}
    (h : (feedAll { limit } pieces).1 = before ++ .ok .done :: after) :
    .ok .headersDone ∈ before := by
  obtain ⟨early, -, hend, hall | ⟨late, hall, -⟩⟩ := beforeComma_fresh.feedAll_said pieces
  · rw [hall] at h
    exact absurd (h ▸ List.mem_append_right before List.mem_cons_self) hend
  · rcases List.append_eq_append_iff.mp (hall.symm.trans h) with
      ⟨_ | ⟨first, more⟩, rfl, hrest⟩ | ⟨_ | ⟨first, more⟩, rfl, hrest⟩
    · cases hrest
    · obtain ⟨rfl, -⟩ := List.cons.inj hrest
      simp
    · cases hrest
    · obtain ⟨rfl, -⟩ := List.cons.inj hrest
      simp at hend

theorem env_feedAll_append {limit : Nat} (h : .ok .headersDone ∈ (feedAll { limit } pieces).1)
    (more : List Bytes) : (feedAll { limit } (pieces ++ more)).2.request.env =
      (feedAll { limit } pieces).2.request.env := by
  rcases beforeComma_fresh.feedAll pieces with ⟨hsaid, -⟩ | ⟨-, head, hr⟩
  · exact absurd h hsaid
  · rw [feedAll_append]
    exact (hr.feedAll_keeps more).2

/-- However a fresh reader has been fed, a fault stays: to whatever comes it says the same
again, and its request does not change. The exception is a header block that is wrong. Then
the reader has dropped the block, and takes as many of the next bytes for another one, into
the environment it has. In any history it reports the end of the headers at most once and
that of the request only after it, and after the headers the environment stays. -/
theorem feedAll_after_fault (limit : Nat) (pieces : List Bytes) :
    let said := (feedAll { limit } pieces).1
    let r := (feedAll { limit } pieces).2
    (∀ data fault r', r.feed data = (.error fault, r') → (∀ wrong, fault ≠ .headers wrong) →
      ∀ more, r'.feedAll more = (List.replicate more.length (.error fault),
        { r' with pending := r'.pending ++ more.flatten })) ∧
    (∀ data wrong r', r.feed data = (.error (.headers wrong), r') →
      ∃ size bytes, Drops r.request size bytes wrong r' ∧
        ((r.phase = .headers size ∧ r.pending ++ data = bytes) ∨
          r.phase = .length ∧ ∃ digits, r.pending ++ data = digits ++ 0x3A :: bytes ∧
            (∀ b ∈ digits, Numeral.isDigit b) ∧ Numeral.value digits = size)) ∧
    said.count (.ok .headersDone) ≤ 1 ∧
    (∀ before after, said = before ++ .ok .done :: after → .ok .headersDone ∈ before) ∧
    (.ok .headersDone ∈ said → ∀ more,
      (feedAll { limit } (pieces ++ more)).2.request.env = r.request.env) := by
  intro said r
  refine ⟨?_, ?_, count_headersDone_le limit pieces, ?_, ?_⟩
  · intro data fault r' h hf
    exact (feed_stuck h hf).feedAll
  · intro data wrong r' h
    exact feed_drops h
  · intro before after h
    exact headersDone_before_done h
  · intro h
    exact env_feedAll_append h

theorem feedAll_after_refused_block :
    let wrong := Utf8.encode "18:" ++ List.replicate 18 0x78
    let right := Utf8.encode "CONTENT_LENGTH\x00+1\x00"
    let r := (feedAll { limit := 18 } [wrong]).2
    let pieces := [wrong, right ++ Utf8.encode ",", Utf8.encode "a"]
    (∃ r', feed { limit := 18 } wrong = (.error (.headers .malformed), r') ∧
      ∃ size bytes, Drops {} size bytes .malformed r') ∧
    (∃ r', r.feed (right ++ Utf8.encode ";") = (.error .missingComma, r') ∧
      ∀ more, (r'.feedAll more).1 = List.replicate more.length (.error .missingComma)) ∧
    (feedAll { limit := 18 } pieces).1 =
      [.error (.headers .malformed), .ok .headersDone, .ok .done] ∧
    ∀ more, (feedAll { limit := 18 } (pieces ++ more)).2.request.env =
      (feedAll { limit := 18 } pieces).2.request.env := by
  intro wrong right r pieces
  have hwrong : (feed { limit := 18 } wrong).1 = .error (.headers .malformed) := by decide +kernel
  have hright : (r.feed (right ++ Utf8.encode ";")).1 = .error .missingComma := by decide +kernel
  have hsaid : (feedAll { limit := 18 } pieces).1 =
      [.error (.headers .malformed), .ok .headersDone, .ok .done] := by decide +kernel
  obtain ⟨-, hrefused, -⟩ := feedAll_after_fault 18 []
  obtain ⟨hstuck, -⟩ := feedAll_after_fault 18 [wrong]
  obtain ⟨-, -, -, hbefore, henv⟩ := feedAll_after_fault 18 pieces
  refine ⟨⟨_, Prod.ext hwrong rfl, ?_⟩, ⟨_, Prod.ext hright rfl, fun more => ?_⟩, hsaid, ?_⟩
  · obtain ⟨size, bytes, hdrops, -⟩ := hrefused wrong _ _ (Prod.ext hwrong rfl)
    exact ⟨size, bytes, hdrops⟩
  · rw [hstuck _ _ _ (Prod.ext hright rfl) nofun more]
  · have hheaders := hbefore [.error (.headers .malformed), .ok .headersDone] [] hsaid
    exact henv (hsaid ▸ List.mem_append_left _ hheaders)

end Reader

end ScgiStub
