import Mathlib.Data.List.TakeWhile
import Mathlib.Tactic.Common
import ScgiStub.Request.Reader

/-! # What a reader says in each phase

Every phase has its own few outcomes, each with the condition under which it
comes and the reader it leaves behind.
-/

namespace ScgiStub

namespace Reader

variable {r r' : Reader} {data : Bytes} {result : Except Fault Progress}

theorem digits_or_stop (bs : Bytes) : (∀ b ∈ bs, Numeral.isDigit b) ∨
    ∃ digits stop rest, bs = digits ++ stop :: rest ∧ (∀ b ∈ digits, Numeral.isDigit b) ∧
      Numeral.isDigit stop = false := by
  induction bs with
  | nil => exact .inl nofun
  | cons b bs ih =>
    cases hb : Numeral.isDigit b with
    | false => exact .inr ⟨[], b, bs, rfl, nofun, hb⟩
    | true =>
      rcases ih with h | ⟨digits, stop, rest, rfl, hd, hs⟩
      · exact .inl (List.forall_mem_cons.mpr ⟨hb, h⟩)
      · exact .inr ⟨b :: digits, stop, rest, rfl, List.forall_mem_cons.mpr ⟨hb, hd⟩, hs⟩

theorem scanLength_digits {limit : Nat} {digits : Bytes} (h : ∀ b ∈ digits, Numeral.isDigit b) :
    scanLength limit digits =
      if maxDigits < digits.length then .error .lengthTooLong else .ok none := by
  have ht : digits.takeWhile Numeral.isDigit = digits := List.takeWhile_eq_self_iff.mpr h
  have hd : digits.dropWhile Numeral.isDigit = [] := List.dropWhile_eq_nil_iff.mpr h
  simp only [scanLength, ht, hd]

theorem scanLength_stop {limit : Nat} {digits : Bytes} {stop : UInt8} {rest : Bytes}
    (h : ∀ b ∈ digits, Numeral.isDigit b) (hs : Numeral.isDigit stop = false) :
    scanLength limit (digits ++ stop :: rest) =
      if maxDigits < digits.length then .error .lengthTooLong
      else if digits = [] ∨ stop ≠ 0x3A then .error .invalidLength
      else if limit < Numeral.value digits then
        .error (.headersTooLarge (Numeral.value digits) limit)
      else .ok (some (Numeral.value digits, rest)) := by
  have ht : (digits ++ stop :: rest).takeWhile Numeral.isDigit = digits := by
    rw [List.takeWhile_append_of_pos h, List.takeWhile_cons, hs]; simp
  have hd : (digits ++ stop :: rest).dropWhile Numeral.isDigit = stop :: rest := by
    rw [List.dropWhile_append_of_pos h, List.dropWhile_cons, hs]; simp
  simp only [scanLength, ht, hd]

theorem scanLength_some_iff {limit size : Nat} {bs rest : Bytes} :
    scanLength limit bs = .ok (some (size, rest)) ↔
      ∃ digits, bs = digits ++ 0x3A :: rest ∧ (∀ b ∈ digits, Numeral.isDigit b) ∧ digits ≠ [] ∧
        digits.length ≤ maxDigits ∧ Numeral.value digits = size ∧ size ≤ limit := by
  constructor
  · intro h
    rcases digits_or_stop bs with hb | ⟨digits, stop, rest', rfl, hd, hs⟩
    · rw [scanLength_digits hb] at h
      split at h <;> cases h
    · rw [scanLength_stop hd hs] at h
      split_ifs at h with hlong hstop hlimit
      obtain ⟨hne, hcolon⟩ := not_or.mp hstop
      cases h
      exact ⟨digits, by rw [not_not.mp hcolon], hd, hne, by omega, rfl, by omega⟩
  · rintro ⟨digits, rfl, hd, hne, hlen, rfl, hlimit⟩
    rw [scanLength_stop hd (by decide), if_neg (by omega), if_neg (by simpa using hne),
      if_neg (by omega)]

theorem scanLength_error_cases {limit : Nat} {bs : Bytes} {fault : Fault}
    (h : scanLength limit bs = .error fault) : fault = .lengthTooLong ∨ fault = .invalidLength ∨
      ∃ size, fault = .headersTooLarge size limit := by
  rcases digits_or_stop bs with hb | ⟨digits, stop, rest, rfl, hd, hs⟩
  · rw [scanLength_digits hb] at h
    split_ifs at h
    exact .inl (Except.error.inj h).symm
  · rw [scanLength_stop hd hs] at h
    split_ifs at h
    · exact .inl (Except.error.inj h).symm
    · exact .inr (.inl (Except.error.inj h).symm)
    · exact .inr (.inr ⟨_, (Except.error.inj h).symm⟩)

theorem takeComma_cases (h : r.takeComma = (result, r')) :
    (r.pending = [] ∧ result = .ok .incomplete ∧ r' = r) ∨
    (∃ rest, r.pending = 0x2C :: rest ∧ result = .ok .headersDone ∧
      r' = { r with phase := .body, pending := rest }) ∨
    (∃ b rest, r.pending = b :: rest ∧ b ≠ 0x2C ∧ result = .error .missingComma ∧ r' = r) := by
  cases hp : r.pending with
  | nil =>
    simp only [takeComma, hp, Prod.mk.injEq] at h
    exact .inl ⟨rfl, h.1.symm, h.2.symm⟩
  | cons b rest =>
    by_cases hb : b = 0x2C
    · subst hb
      simp only [takeComma, hp, Prod.mk.injEq] at h
      exact .inr (.inl ⟨rest, rfl, h.1.symm, h.2.symm⟩)
    · simp only [takeComma, hp, Prod.mk.injEq] at h
      exact .inr (.inr ⟨b, rest, rfl, hb, h.1.symm, h.2.symm⟩)

theorem takeHeaders_cases {size : Nat} (h : r.takeHeaders size = (result, r')) :
    (r.pending.length < size ∧ result = .ok .incomplete ∧ r' = r) ∨
    (∃ block rest fault env, r.pending = block ++ rest ∧ block.length = size ∧
      HeaderBlock.decode r.request.env block = (.error fault, env) ∧
      result = .error (.headers fault) ∧
      r' = { r with pending := rest, request := { r.request with env } }) ∨
    (∃ block rest env, r.pending = block ++ rest ∧ block.length = size ∧
      HeaderBlock.decode r.request.env block = (.ok (), env) ∧
      takeComma { r with phase := .comma, pending := rest, request := { r.request with env } } =
        (result, r')) := by
  rcases Nat.lt_or_ge r.pending.length size with hfew | hmany
  · simp only [takeHeaders, if_pos hfew, Prod.mk.injEq] at h
    exact .inl ⟨hfew, h.1.symm, h.2.symm⟩
  · have hsplit := (List.take_append_drop size r.pending).symm
    have hlen : (r.pending.take size).length = size := List.length_take_of_le hmany
    simp only [takeHeaders, if_neg (Nat.not_lt.mpr hmany)] at h
    cases hd : HeaderBlock.decode r.request.env (r.pending.take size) with
    | mk verdict env =>
      rw [hd] at h
      cases verdict with
      | error fault =>
        simp only [Prod.mk.injEq] at h
        exact .inr (.inl ⟨_, _, fault, env, hsplit, hlen, hd, h.1.symm, h.2.symm⟩)
      | ok => exact .inr (.inr ⟨_, _, env, hsplit, hlen, hd, h⟩)

theorem takeLength_cases (h : r.takeLength = (result, r')) :
    (∃ fault, scanLength r.limit r.pending = .error fault ∧ result = .error fault ∧ r' = r) ∨
    (scanLength r.limit r.pending = .ok none ∧ result = .ok .incomplete ∧ r' = r) ∨
    (∃ size rest, scanLength r.limit r.pending = .ok (some (size, rest)) ∧
      takeHeaders { r with phase := .headers size, pending := rest } size = (result, r')) := by
  unfold takeLength at h
  cases hs : scanLength r.limit r.pending with
  | error fault =>
    simp only [hs, Prod.mk.injEq] at h
    exact .inl ⟨fault, rfl, h.1.symm, h.2.symm⟩
  | ok found =>
    cases found with
    | none =>
      simp only [hs, Prod.mk.injEq] at h
      exact .inr (.inl ⟨rfl, h.1.symm, h.2.symm⟩)
    | some found =>
      obtain ⟨size, rest⟩ := found
      simp only [hs] at h
      exact .inr (.inr ⟨size, rest, rfl, h⟩)

/-- The reader whose body has got what it lacks, as far as the pending bytes go. -/
def fill (r : Reader) (size : Nat) : Reader :=
  let missing := size - r.request.body.length
  { r with
    pending := r.pending.drop missing
    request := { r.request with body := r.request.body ++ r.pending.take missing } }

theorem takeBody_cases (h : r.takeBody = (result, r')) :
    (r.request.contentLength? = none ∧ result = .error .invalidContentLength ∧ r' = r) ∨
    (∃ size, r.request.contentLength? = some size ∧ (r.fill size).request.body.length = size ∧
      result = .ok .done ∧ r' = { r.fill size with phase := .done }) ∨
    (∃ size, r.request.contentLength? = some size ∧ (r.fill size).request.body.length ≠ size ∧
      result = .ok .incomplete ∧ r' = r.fill size) := by
  unfold takeBody at h
  cases hc : r.request.contentLength? with
  | none =>
    simp only [hc, Prod.mk.injEq] at h
    exact .inl ⟨rfl, h.1.symm, h.2.symm⟩
  | some size =>
    simp only [hc] at h
    split at h
    · next hd =>
      simp only [Prod.mk.injEq] at h
      exact .inr (.inl ⟨size, rfl, hd, h.1.symm, h.2.symm⟩)
    · next hd =>
      simp only [Prod.mk.injEq] at h
      exact .inr (.inr ⟨size, rfl, hd, h.1.symm, h.2.symm⟩)

/-! ## The end of the headers and the end of the request -/

theorem takeComma_ne_done : r.takeComma ≠ (.ok .done, r') := by
  intro h
  rcases takeComma_cases h with ⟨_, hr, _⟩ | ⟨_, _, hr, _⟩ | ⟨_, _, _, _, hr, _⟩ <;> cases hr

theorem takeHeaders_ne_done {size : Nat} : r.takeHeaders size ≠ (.ok .done, r') := by
  intro h
  rcases takeHeaders_cases h with ⟨_, hr, _⟩ | ⟨_, _, _, _, _, _, _, hr, _⟩ | ⟨_, _, _, _, _, _, hc⟩
  · cases hr
  · cases hr
  · exact takeComma_ne_done hc

theorem takeLength_ne_done : r.takeLength ≠ (.ok .done, r') := by
  intro h
  rcases takeLength_cases h with ⟨_, _, hr, _⟩ | ⟨_, hr, _⟩ | ⟨_, _, _, hh⟩
  · cases hr
  · cases hr
  · exact takeHeaders_ne_done hh

theorem takeComma_headersDone_iff : r.takeComma = (.ok .headersDone, r') ↔
    ∃ rest, r.pending = 0x2C :: rest ∧ r' = { r with phase := .body, pending := rest } := by
  constructor
  · intro h
    rcases takeComma_cases h with ⟨_, hr, _⟩ | ⟨rest, hp, _, hr'⟩ | ⟨_, _, _, _, hr, _⟩
    · cases hr
    · exact ⟨rest, hp, hr'⟩
    · cases hr
  · rintro ⟨rest, hp, rfl⟩
    simp [takeComma, hp]

theorem takeHeaders_headersDone_iff {size : Nat} :
    r.takeHeaders size = (.ok .headersDone, r') ↔
      ∃ block rest env, r.pending = block ++ 0x2C :: rest ∧ block.length = size ∧
        HeaderBlock.decode r.request.env block = (.ok (), env) ∧
        r' = { r with phase := .body, pending := rest, request := { r.request with env } } := by
  constructor
  · intro h
    rcases takeHeaders_cases h with ⟨_, hr, _⟩ | ⟨_, _, _, _, _, _, _, hr, _⟩ |
      ⟨block, rest, env, hp, hl, hd, hc⟩
    · cases hr
    · cases hr
    · obtain ⟨rest, rfl, rfl⟩ := takeComma_headersDone_iff.mp hc
      exact ⟨block, rest, env, hp, hl, hd, rfl⟩
  · rintro ⟨block, rest, env, hp, rfl, hd, rfl⟩
    simp [takeHeaders, hp, hd, takeComma]

theorem takeLength_headersDone_iff : r.takeLength = (.ok .headersDone, r') ↔
    ∃ block rest env, scanLength r.limit r.pending =
        .ok (some (block.length, block ++ 0x2C :: rest)) ∧
      HeaderBlock.decode r.request.env block = (.ok (), env) ∧
      r' = { r with phase := .body, pending := rest, request := { r.request with env } } := by
  constructor
  · intro h
    rcases takeLength_cases h with ⟨_, _, hr, _⟩ | ⟨_, hr, _⟩ | ⟨size, _, hs, hh⟩
    · cases hr
    · cases hr
    · obtain ⟨block, rest, env, rfl, rfl, hd, rfl⟩ := takeHeaders_headersDone_iff.mp hh
      exact ⟨block, rest, env, hs, hd, rfl⟩
  · rintro ⟨block, rest, env, hs, hd, rfl⟩
    simp [takeLength, hs, takeHeaders, hd, takeComma]

theorem phase_of_headersDone (h : r.feed data = (.ok .headersDone, r')) : r'.phase = .body := by
  unfold feed resume at h
  split at h
  · obtain ⟨_, _, _, _, _, rfl⟩ := takeLength_headersDone_iff.mp h; rfl
  · obtain ⟨_, _, _, _, _, _, rfl⟩ := takeHeaders_headersDone_iff.mp h; rfl
  · obtain ⟨_, _, rfl⟩ := takeComma_headersDone_iff.mp h; rfl
  · rcases takeBody_cases h with ⟨_, hr, _⟩ | ⟨_, _, _, hr, _⟩ | ⟨_, _, _, hr, _⟩ <;> cases hr
  · cases h

theorem phase_of_done (h : r.feed data = (.ok .done, r')) : r'.phase = .done := by
  unfold feed resume at h
  split at h
  · exact (takeLength_ne_done h).elim
  · exact (takeHeaders_ne_done h).elim
  · exact (takeComma_ne_done h).elim
  · rcases takeBody_cases h with ⟨_, hr, _⟩ | ⟨_, _, _, _, rfl⟩ | ⟨_, _, _, hr, _⟩
    · cases hr
    · rfl
    · cases hr
  · next hp => cases h; exact hp

theorem feed_ne_headersDone (h : r.phase = .body) : r.feed data ≠ (.ok .headersDone, r') := by
  intro hf
  unfold feed resume at hf
  simp only [h] at hf
  rcases takeBody_cases hf with ⟨_, hr, _⟩ | ⟨_, _, _, hr, _⟩ | ⟨_, _, _, hr, _⟩ <;> cases hr

theorem feed_nil : r.feed [] = r.resume := by rw [feed, List.append_nil]

theorem feed_nil_done_iff (h : r.phase = .body) (hb : r.request.body = []) :
    r.feed [] = (.ok .done, r') ↔
      ∃ size, r.request.contentLength? = some size ∧ size ≤ r.pending.length ∧
        r' = { r with
          phase := .done
          pending := r.pending.drop size
          request := { r.request with body := r.pending.take size } } := by
  have hfeed : r.feed [] = r.takeBody := by rw [feed_nil, resume, h]
  rw [hfeed]
  constructor
  · intro ht
    rcases takeBody_cases ht with ⟨_, hr, _⟩ | ⟨size, hc, hl, _, rfl⟩ | ⟨_, _, _, hr, _⟩
    · cases hr
    · refine ⟨size, hc, ?_, by simp [fill, hb]⟩
      simp only [fill, hb, List.nil_append, List.length_nil, Nat.sub_zero, List.length_take] at hl
      omega
    · cases hr
  · rintro ⟨size, hc, hsize, rfl⟩
    simp [takeBody, hc, hb, hsize]

end Reader

end ScgiStub
