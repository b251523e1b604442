import ScgiStub.Proofs.Bounds
import ScgiStub.Proofs.Gate

/-! # What becomes of the bytes

A reader may be fed whatever happens, after a fault and after the end of the request
too. What it has not used is always the end of what came in, and the body is what came
right after the comma.
-/

namespace ScgiStub

namespace Reader

variable {r r' : Reader} {data head fed : Bytes} {pieces more : List Bytes}
  {said : Except Fault Progress}

/-- What the reader says to the pieces, whatever it says to those before, and how it is left. -/
def feedAll (r : Reader) : List Bytes → List (Except Fault Progress) × Reader
  | [] => ([], r)
  | piece :: pieces =>
    let (said, r) := r.feed piece
    let (later, r) := r.feedAll pieces
    (said :: later, r)

theorem feedAll_cons (h : r.feed data = (said, r')) :
    r.feedAll (data :: pieces) = (said :: (r'.feedAll pieces).1, (r'.feedAll pieces).2) := by
  simp only [feedAll, h]

theorem feedAll_append : r.feedAll (pieces ++ more) =
    ((r.feedAll pieces).1 ++ ((r.feedAll pieces).2.feedAll more).1,
      ((r.feedAll pieces).2.feedAll more).2) := by
  induction pieces generalizing r with
  | nil => rfl
  | cons piece pieces ih =>
    rw [List.cons_append, feedAll_cons rfl, feedAll_cons rfl, ih]
    rfl

/-! ## One piece -/

/-- What feeding comes to before the comma is taken: the reader drops some bytes in
front, or those up to the comma and the comma. -/
inductive Advances (r : Reader) : Except Fault Progress → Reader → Prop
  | before {said : Except Fault Progress} {r' : Reader} : said ≠ .ok .headersDone → r'.InHead →
      r'.pending <:+ r.pending → Advances r said r'
  | past (head : Bytes) {r' : Reader} : r'.phase = .body →
      r.pending = head ++ 0x2C :: r'.pending → Advances r (.ok .headersDone) r'

theorem Advances.of_suffix {held : Reader} (h : held.Advances said r')
    (hs : held.pending <:+ r.pending) : r.Advances said r' := by
  cases h with
  | before hsaid hhead hp => exact .before hsaid hhead (hp.trans hs)
  | @past head _ hbody hp =>
    obtain ⟨dropped, hd⟩ := hs
    exact .past (dropped ++ head) hbody (by rw [← hd, hp, List.append_assoc])

theorem takeComma_advances (hp : r.phase = .comma) (h : r.takeComma = (said, r')) :
    r.Advances said r' := by
  have hin : r.InHead := by simp [InHead, hp]
  rcases takeComma_cases h with ⟨_, rfl, rfl⟩ | ⟨rest, hr, rfl, rfl⟩ | ⟨_, _, _, _, rfl, rfl⟩
  · exact .before (by simp) hin (List.suffix_refl _)
  · exact .past [] rfl hr
  · exact .before (by simp) hin (List.suffix_refl _)

theorem takeHeaders_advances {size : Nat} (hp : r.phase = .headers size)
    (h : r.takeHeaders size = (said, r')) : r.Advances said r' := by
  have hin : r.InHead := by simp [InHead, hp]
  rcases takeHeaders_cases h with ⟨_, rfl, rfl⟩ | ⟨block, rest, _, env, hr, _, _, rfl, rfl⟩ |
    ⟨block, rest, env, hr, _, _, hc⟩
  · exact .before (by simp) hin (List.suffix_refl _)
  · exact .before (by simp) hin ⟨block, hr.symm⟩
  · exact (takeComma_advances rfl hc).of_suffix ⟨block, hr.symm⟩

theorem takeLength_advances (hp : r.phase = .length) (h : r.takeLength = (said, r')) :
    r.Advances said r' := by
  have hin : r.InHead := by simp [InHead, hp]
  rcases takeLength_cases h with ⟨_, _, rfl, rfl⟩ | ⟨_, rfl, rfl⟩ | ⟨size, rest, hs, hh⟩
  · exact .before (by simp) hin (List.suffix_refl _)
  · exact .before (by simp) hin (List.suffix_refl _)
  · obtain ⟨digits, hr, -⟩ := scanLength_some_iff.mp hs
    exact (takeHeaders_advances rfl hh).of_suffix ⟨digits ++ [0x3A], by simp [hr]⟩

theorem feed_advances (hr : r.InHead) (h : r.feed data = (said, r')) :
    (r.push data).Advances said r' := by
  rw [feed_eq_resume, resume, phase_push] at h
  cases hp : r.phase with
  | length => rw [hp] at h; exact takeLength_advances (r := r.push data) hp h
  | headers size => rw [hp] at h; exact takeHeaders_advances (r := r.push data) hp h
  | comma => rw [hp] at h; exact takeComma_advances (r := r.push data) hp h
  | body => exact absurd hp hr.1
  | done => exact absurd hp hr.2

/-! ## Any pieces -/

/-- The comma is to come: there is no body, and the end of what came in is not used yet. -/
structure BeforeComma (fed : Bytes) (r : Reader) : Prop where
  in_head : r.InHead
  body : r.request.body = []
  pending : r.pending <:+ fed

/-- What came in is `head`, the comma, the body, and what is not used yet. The body has
at most the size that the headers declare. -/
structure PastComma (head fed : Bytes) (r : Reader) : Prop where
  phase : r.phase = .body ∨ r.phase = .done
  fed_eq : fed = head ++ 0x2C :: (r.request.body ++ r.pending)
  body_le : ∀ size, r.request.contentLength? = some size → r.request.body.length ≤ size

theorem beforeComma_fresh {limit : Nat} : BeforeComma [] { limit } :=
  ⟨by simp [InHead], rfl, List.suffix_refl _⟩

theorem BeforeComma.feed (hr : BeforeComma fed r) (h : r.feed data = (said, r')) :
    (said ≠ .ok .headersDone ∧ BeforeComma (fed ++ data) r') ∨
      (said = .ok .headersDone ∧ ∃ head, PastComma head (fed ++ data) r') := by
  have hbody : r'.request.body = [] := (feed_early hr.in_head h).body.trans hr.body
  have hpending : (r.push data).pending <:+ fed ++ data :=
    (List.suffix_append_inj_of_length_eq rfl).mpr ⟨hr.pending, rfl⟩
  cases feed_advances hr.in_head h with
  | before hsaid hhead hp => exact .inl ⟨hsaid, hhead, hbody, hp.trans hpending⟩
  | @past head _ hphase hp =>
    obtain ⟨used, hused⟩ := hpending
    refine .inr ⟨rfl, used ++ head, .inl hphase, ?_, by simp [hbody]⟩
    rw [hbody, List.nil_append, ← hused, hp, List.append_assoc]

theorem PastComma.push (hr : PastComma head fed r) : PastComma head (fed ++ data) (r.push data) :=
  ⟨hr.phase, by rw [hr.fed_eq]; simp, hr.body_le⟩

theorem PastComma.fill {size : Nat} (hr : PastComma head fed r)
    (hc : r.request.contentLength? = some size) : PastComma head fed (r.fill size) := by
  have hle := hr.body_le size hc
  refine ⟨hr.phase, ?_, ?_⟩
  · simp only [Reader.fill, List.append_assoc, List.take_append_drop, hr.fed_eq]
  · intro size' hc'
    obtain rfl : size = size' := Option.some.inj (hc.symm.trans hc')
    simp only [Reader.fill, List.length_append, List.length_take]
    omega

theorem PastComma.feed (hr : PastComma head fed r) (h : r.feed data = (said, r')) :
    said ≠ .ok .headersDone ∧ r'.request.env = r.request.env ∧ PastComma head (fed ++ data) r' := by
  have hpush : PastComma head (fed ++ data) (r.push data) := hr.push
  rcases hr.phase with hp | hp
  · rw [feed_eq_resume, resume, phase_push, hp] at h
    rcases takeBody_cases h with ⟨_, rfl, rfl⟩ | ⟨size, hc, _, rfl, rfl⟩ | ⟨size, hc, _, rfl, rfl⟩
    · exact ⟨by simp, rfl, hpush⟩
    · obtain ⟨-, hfed, hle⟩ := hpush.fill hc
      exact ⟨by simp, rfl, .inr rfl, hfed, hle⟩
    · exact ⟨by simp, rfl, hpush.fill hc⟩
  · rw [feed_of_done hp] at h
    cases h
    exact ⟨by simp, rfl, hpush⟩

theorem PastComma.feedAll (hr : PastComma head fed r) (pieces : List Bytes) :
    PastComma head (fed ++ pieces.flatten) (r.feedAll pieces).2 := by
  induction pieces generalizing r fed with
  | nil => simpa [Reader.feedAll] using hr
  | cons piece pieces ih =>
    rcases hf : r.feed piece with ⟨said, r'⟩
    obtain ⟨-, -, hr'⟩ := hr.feed hf
    rw [feedAll_cons hf, List.flatten_cons, ← List.append_assoc]
    exact ih hr'

theorem BeforeComma.feedAll (hr : BeforeComma fed r) (pieces : List Bytes) :
    (.ok .headersDone ∉ (r.feedAll pieces).1 ∧
      BeforeComma (fed ++ pieces.flatten) (r.feedAll pieces).2) ∨
    (.ok .headersDone ∈ (r.feedAll pieces).1 ∧
      ∃ head, PastComma head (fed ++ pieces.flatten) (r.feedAll pieces).2) := by
  induction pieces generalizing r fed with
  | nil => exact .inl ⟨by simp [Reader.feedAll], by simpa [Reader.feedAll] using hr⟩
  | cons piece pieces ih =>
    rcases hf : r.feed piece with ⟨said, r'⟩
    rw [feedAll_cons hf, List.flatten_cons, ← List.append_assoc]
    rcases hr.feed hf with ⟨hsaid, hr'⟩ | ⟨rfl, head, hr'⟩
    · simpa [hsaid.symm] using ih hr'
    · exact .inr ⟨by simp, head, hr'.feedAll pieces⟩

theorem phase_feedAll_of_done (h : r.phase = .done) : (r.feedAll pieces).2.phase = .done := by
  induction pieces generalizing r with
  | nil => exact h
  | cons piece pieces ih =>
    rw [feedAll_cons (feed_of_done h)]
    exact ih h

theorem phase_feedAll_of_mem (h : .ok .done ∈ (r.feedAll pieces).1) :
    (r.feedAll pieces).2.phase = .done := by
  induction pieces generalizing r with
  | nil => cases h
  | cons piece pieces ih =>
    rcases hf : r.feed piece with ⟨said, r'⟩
    rw [feedAll_cons hf] at h ⊢
    rcases List.mem_cons.mp h with hsaid | hlater
    · exact phase_feedAll_of_done (phase_of_done (hsaid ▸ hf))
    · exact ih hlater

/-- However a fresh reader is fed, no byte is lost, comes twice or moves: what it holds
is the end of what came in, and once the headers are complete, a part that stays the same,
the comma, the body and what it holds make up all that came in. It has no body before that
and never one of more than the declared size, stays within the bounds of what it works on,
and after the end of the request only keeps what still comes. -/
theorem feedAll_conserves (limit : Nat) (pieces : List Bytes) :
    let said := (feedAll { limit } pieces).1
    let r := (feedAll { limit } pieces).2
    r.pending <:+ pieces.flatten ∧
    (.ok .headersDone ∉ said → r.request.body = []) ∧
    (.ok .headersDone ∈ said → ∃ head, ∀ more,
      let later := (feedAll { limit } (pieces ++ more)).2
      (pieces ++ more).flatten = head ++ 0x2C :: (later.request.body ++ later.pending)) ∧
    (r.phase = .body → ∀ size, r.request.contentLength? = some size →
      r.request.body.length ≤ size) ∧
    (∀ data, r.feed? data = some (r.feed data)) ∧
    (.ok .done ∈ said → ∀ data, r.feed data = (.ok .done, r.push data)) := by
  intro said r
  have hdone : .ok .done ∈ said → ∀ data, r.feed data = (.ok .done, r.push data) :=
    fun h _ => feed_of_done (phase_feedAll_of_mem h)
  rcases beforeComma_fresh.feedAll pieces with ⟨hsaid, hr⟩ | ⟨hsaid, head, hr⟩
  · have hphase : r.phase ≠ .body := hr.in_head.1
    refine ⟨hr.pending, fun _ => hr.body, fun h => absurd h hsaid, fun h => absurd h hphase,
      fun data => feed?_eq fun h => absurd h hphase, hdone⟩
  · refine ⟨⟨head ++ 0x2C :: r.request.body, ?_⟩, fun h => absurd hsaid h, fun _ => ⟨head, ?_⟩,
      fun _ => hr.body_le, fun data => feed?_eq fun _ => hr.body_le, hdone⟩
    · have hfed : pieces.flatten = head ++ 0x2C :: (r.request.body ++ r.pending) := hr.fed_eq
      simp [hfed]
    · intro more
      have hmore := (hr.feedAll more).fed_eq
      rw [feedAll_append, List.flatten_append]
      exact hmore

theorem feedAll_conserves_refused_block :
    let pieces := [Utf8.encode "18:" ++ List.replicate 18 0x78, [],
      Utf8.encode "CONTENT_LENGTH\x00+1\x00,a", Utf8.encode "bc"]
    let said := (feedAll { limit := 18 } pieces).1
    let r := (feedAll { limit := 18 } pieces).2
    said = [.error (.headers .malformed), .ok .incomplete, .ok .headersDone, .ok .done] ∧
      (∃ head, pieces.flatten = head ++ 0x2C :: (r.request.body ++ r.pending)) ∧
      r.request.body = Utf8.encode "a" ∧ r.pending = Utf8.encode "bc" ∧
      ∀ data, r.feed data = (.ok .done, r.push data) := by
  intro pieces said r
  have hsaid : said =
      [.error (.headers .malformed), .ok .incomplete, .ok .headersDone, .ok .done] := by
    decide +kernel
  have hheaders : .ok .headersDone ∈ said := by simp [hsaid]
  have hend : .ok .done ∈ said := by simp [hsaid]
  obtain ⟨-, -, hfed, -, -, hdone⟩ := feedAll_conserves 18 pieces
  obtain ⟨head, hhead⟩ := hfed hheaders
  refine ⟨hsaid, ⟨head, ?_⟩, by decide +kernel, by decide +kernel, hdone hend⟩
  have hpieces := hhead []
  rwa [List.append_nil] at hpieces

end Reader

end ScgiStub
