import ScgiStub.Proofs.Phases

/-! # Feeding a reader in pieces

What a reader makes of a request does not depend on the pieces in which it comes.
While it waits, two pieces are one longer piece; once it has spoken, further
bytes stay behind.
-/

namespace ScgiStub

namespace Reader

def push (r : Reader) (data : Bytes) : Reader :=
  { r with pending := r.pending ++ data }

/-- An outcome if more bytes had come along. A reader that waits goes on with them. -/
def Outcome.push : Outcome → Bytes → Outcome
  | (.ok .incomplete, r), data => r.feed data
  | (result, r), data => (result, r.push data)

variable {r r' : Reader} {a b data : Bytes}

@[simp] theorem phase_push : (r.push data).phase = r.phase := rfl
@[simp] theorem limit_push : (r.push data).limit = r.limit := rfl
@[simp] theorem request_push : (r.push data).request = r.request := rfl
@[simp] theorem pending_push : (r.push data).pending = r.pending ++ data := rfl

@[simp] theorem push_nil : r.push [] = r := by simp [push]

@[simp] theorem push_push : (r.push a).push b = r.push (a ++ b) := by simp [push]

theorem feed_eq_resume : r.feed data = (r.push data).resume := rfl

@[simp] theorem feed_push : (r.push a).feed b = r.feed (a ++ b) := by
  rw [feed_eq_resume, push_push, feed_eq_resume]

theorem feed_of_done (h : r.phase = .done) : r.feed data = (.ok .done, r.push data) := by
  rw [feed_eq_resume, resume, phase_push, h]

theorem scanLength_append {limit : Nat} (h : scanLength limit a ≠ .ok none) :
    scanLength limit (a ++ b) =
      (scanLength limit a).map (Option.map fun (size, rest) => (size, rest ++ b)) := by
  rcases digits_or_stop a with ha | ⟨digits, stop, rest, rfl, hd, hs⟩
  · rw [scanLength_digits ha] at h ⊢
    have hlong : maxDigits < a.length := by by_contra hn; simp [hn] at h
    rw [if_pos hlong]
    rcases digits_or_stop b with hb | ⟨digits, stop, rest, rfl, hd, hs⟩
    · rw [scanLength_digits (List.forall_mem_append.mpr ⟨ha, hb⟩), if_pos]
      · rfl
      · rw [List.length_append]; omega
    · rw [← List.append_assoc, scanLength_stop (List.forall_mem_append.mpr ⟨ha, hd⟩) hs, if_pos]
      · rfl
      · rw [List.length_append]; omega
  · rw [List.append_assoc, List.cons_append, scanLength_stop hd hs, scanLength_stop hd hs]
    split_ifs <;> rfl

theorem takeBody_push (h : r.phase = .body) :
    (r.push data).takeBody = Outcome.push r.takeBody data := by
  cases hc : r.request.contentLength? with
  | none => simp [takeBody, hc, Outcome.push]
  | some size =>
    rcases Nat.lt_or_ge r.pending.length (size - r.request.body.length) with hfew | hmany
    · have hne : r.request.body.length + r.pending.length ≠ size := by omega
      have htake : r.pending.take (size - r.request.body.length) = r.pending :=
        List.take_of_length_le (by omega)
      have hdrop : r.pending.drop (size - r.request.body.length) = [] :=
        List.drop_eq_nil_of_le (by omega)
      have hc' : Request.contentLength? { r.request with body := r.request.body ++ r.pending } =
        some size := hc
      have hsub : size - (r.request.body.length + r.pending.length) =
        size - r.request.body.length - r.pending.length := by omega
      simp [takeBody, hc, hc', Outcome.push, feed, resume, h, htake, hdrop, hne,
        List.take_append, List.drop_append, hsub]
    · simp only [takeBody, request_push, pending_push, hc, List.take_append_of_le_length hmany,
        List.drop_append_of_le_length hmany]
      split
      · rfl
      · next hne =>
        -- Such a body is longer than declared, and nothing is added to it.
        have hlen : (r.request.body ++ r.pending.take (size - r.request.body.length)).length ≠
          size := hne
        have hzero : size - r.request.body.length = 0 := by
          rw [List.length_append, List.length_take] at hlen; omega
        have hbody : r.request.body.length ≠ size := by simpa [hzero] using hlen
        simp [Outcome.push, feed, resume, h, takeBody, hc, hzero, hbody]

theorem takeComma_push (h : r.phase = .comma) :
    (r.push data).takeComma = Outcome.push r.takeComma data := by
  cases hp : r.pending with
  | nil => simp [takeComma, hp, Outcome.push, feed, resume, h, push]
  | cons b rest =>
    by_cases hb : b = 0x2C
    · subst hb; simp [takeComma, hp, Outcome.push, push]
    · simp [takeComma, hp, Outcome.push, push]

theorem takeHeaders_push {size : Nat} (h : r.phase = .headers size) :
    (r.push data).takeHeaders size = Outcome.push (r.takeHeaders size) data := by
  rcases Nat.lt_or_ge r.pending.length size with hfew | hmany
  · simp [takeHeaders, hfew, Outcome.push, feed, resume, h, push]
  · have hmany' : size ≤ (r.pending ++ data).length := by rw [List.length_append]; omega
    simp only [takeHeaders, pending_push, request_push, if_neg (Nat.not_lt.mpr hmany),
      if_neg (Nat.not_lt.mpr hmany'), List.take_append_of_le_length hmany,
      List.drop_append_of_le_length hmany]
    cases HeaderBlock.decode r.request.env (r.pending.take size) with
    | mk result env =>
      cases result with
      | error fault => rfl
      | ok =>
        exact takeComma_push (r := ⟨r.limit, .comma, r.pending.drop size, env, r.request.body⟩) rfl

theorem takeLength_push (h : r.phase = .length) :
    (r.push data).takeLength = Outcome.push r.takeLength data := by
  by_cases hs : scanLength r.limit r.pending = .ok none
  · simp [takeLength, hs, Outcome.push, feed, resume, h, push]
  · simp only [takeLength, limit_push, pending_push, scanLength_append hs]
    cases hl : scanLength r.limit r.pending with
    | error fault => rfl
    | ok found =>
      cases found with
      | none => exact absurd hl hs
      | some found =>
        obtain ⟨size, rest⟩ := found
        exact takeHeaders_push (r := { r with phase := .headers size, pending := rest }) rfl

theorem resume_push : (r.push data).resume = Outcome.push r.resume data := by
  unfold resume
  rw [phase_push]
  cases h : r.phase with
  | length => exact takeLength_push h
  | headers size => exact takeHeaders_push h
  | comma => exact takeComma_push h
  | body => exact takeBody_push h
  | done => rfl

/-- Two pieces are one longer piece. -/
theorem feed_append : r.feed (a ++ b) = Outcome.push (r.feed a) b := by
  rw [feed_eq_resume, ← push_push, resume_push, feed_eq_resume]

end Reader

end ScgiStub
