import ScgiStub.Proofs.Grammar
import ScgiStub.Proofs.Loop

/-! # The gate before the body

The headers are checked once, when they are complete, and no byte of the body is
taken before they have passed. After that the request is not rejected any more,
so what follows the comma has no part in a rejection.
-/

namespace ScgiStub

variable {s : Settings}

/-- The headers declare a size that the settings allow, and the body has at most that. -/
def Request.BodyFits (s : Settings) (request : Request) : Prop :=
  ∃ size, request.contentLength? = some size ∧ request.body.length ≤ size ∧ size ≤ s.maxBodySize

theorem Request.bodyFits_of_check {request : Request} (h : s.check request.env = .ok ())
    (hb : request.body = []) : request.BodyFits s := by
  obtain ⟨⟨value, others, size, hfirst, hread, hmax⟩, -⟩ := Settings.check_ok_iff.mp h
  exact ⟨size, contentLength?_of_first hfirst hread, by simp [hb], hmax⟩

namespace Reader

variable {r r' : Reader} {data head : Bytes} {said : Except Fault Progress}

def InHead (r : Reader) : Prop :=
  r.phase ≠ .body ∧ r.phase ≠ .done

/-- What is said before the body is reached, with the reader that is left. -/
structure Early (body : Bytes) (said : Except Fault Progress) (r : Reader) : Prop where
  body : r.request.body = body
  not_done : said ≠ .ok .done
  not_invalid : said ≠ .error .invalidContentLength
  in_head : said = .ok .incomplete → r.InHead

theorem takeComma_early (hp : r.phase = .comma) (h : r.takeComma = (said, r')) :
    Early r.request.body said r' := by
  rcases takeComma_cases h with ⟨_, rfl, rfl⟩ | ⟨_, _, rfl, rfl⟩ | ⟨_, _, _, _, rfl, rfl⟩
  · exact ⟨rfl, by simp, by simp, fun _ => by simp [InHead, hp]⟩
  · exact ⟨rfl, by simp, by simp, by simp⟩
  · exact ⟨rfl, by simp, by simp, by simp⟩

theorem takeHeaders_early {size : Nat} (hp : r.phase = .headers size)
    (h : r.takeHeaders size = (said, r')) : Early r.request.body said r' := by
  rcases takeHeaders_cases h with ⟨_, rfl, rfl⟩ | ⟨_, _, _, _, _, _, _, rfl, rfl⟩ |
    ⟨_, _, _, _, _, _, hc⟩
  · exact ⟨rfl, by simp, by simp, fun _ => by simp [InHead, hp]⟩
  · exact ⟨rfl, by simp, by simp, by simp⟩
  · have hearly := takeComma_early rfl hc
    exact hearly

theorem takeLength_early (hp : r.phase = .length) (h : r.takeLength = (said, r')) :
    Early r.request.body said r' := by
  rcases takeLength_cases h with ⟨fault, hs, rfl, rfl⟩ | ⟨_, rfl, rfl⟩ | ⟨_, _, _, hh⟩
  · refine ⟨rfl, by simp, fun he => ?_, by simp⟩
    obtain rfl := Except.error.inj he
    rcases scanLength_error_cases hs with hf | hf | ⟨_, hf⟩ <;> cases hf
  · exact ⟨rfl, by simp, by simp, fun _ => by simp [InHead, hp]⟩
  · have hearly := takeHeaders_early rfl hh
    exact hearly

theorem feed_early (hr : r.InHead) (h : r.feed data = (said, r')) :
    Early r.request.body said r' := by
  rw [feed_eq_resume, resume, phase_push] at h
  cases hp : r.phase with
  | length => rw [hp] at h; exact takeLength_early (r := r.push data) hp h
  | headers size => rw [hp] at h; exact takeHeaders_early (r := r.push data) hp h
  | comma => rw [hp] at h; exact takeComma_early (r := r.push data) hp h
  | body => exact absurd hp hr.1
  | done => exact absurd hp hr.2

theorem feed_body (hp : r.phase = .body) (hf : r.request.BodyFits s)
    (h : r.feed data = (said, r')) :
    (said = .ok .done ∨ said = .ok .incomplete ∧ r'.phase = .body) ∧
      r'.request.env = r.request.env ∧ r'.request.BodyFits s := by
  obtain ⟨size, hc, hle, hmax⟩ := hf
  rw [feed_eq_resume, resume, phase_push, hp] at h
  have hfill : ((r.push data).fill size).request.body.length ≤ size := by
    simp only [fill, request_push, pending_push, List.length_append, List.length_take]
    omega
  rcases takeBody_cases h with ⟨hn, _⟩ | ⟨size', hc', _, rfl, rfl⟩ | ⟨size', hc', _, rfl, rfl⟩
  · cases hn.symm.trans hc
  · obtain rfl : size' = size := Option.some.inj (hc'.symm.trans hc)
    exact ⟨.inl rfl, rfl, _, hc, hfill, hmax⟩
  · obtain rfl : size' = size := Option.some.inj (hc'.symm.trans hc)
    exact ⟨.inr ⟨rfl, hp⟩, rfl, _, hc, hfill, hmax⟩

/-- The part of a request up to the comma: a size in digits, a colon, a block of
that size and the comma. -/
def IsHead (head : Bytes) : Prop :=
  ∃ digits block, head = digits ++ 0x3A :: (block ++ [0x2C]) ∧
    (∀ b ∈ digits, Numeral.isDigit b) ∧ Numeral.value digits = block.length

theorem takeHeaders_ne_incomplete {size : Nat} (h : size < r.pending.length) :
    r.takeHeaders size ≠ (.ok .incomplete, r') := by
  intro ht
  rcases takeHeaders_cases ht with ⟨hfew, _⟩ | ⟨_, _, _, _, _, _, _, hn, _⟩ |
    ⟨block, rest, env, hp, hl, _, hc⟩
  · omega
  · cases hn
  · rcases takeComma_cases hc with ⟨hnil, _⟩ | ⟨_, _, hn, _⟩ | ⟨_, _, _, _, hn, _⟩
    · obtain rfl : rest = [] := hnil
      rw [hp, List.append_nil] at h
      omega
    · cases hn
    · cases hn

theorem feed_head_ne_incomplete {limit : Nat} (h : IsHead head) :
    feed { limit } head ≠ (.ok .incomplete, r) := by
  obtain ⟨digits, block, rfl, hd, hvalue⟩ := h
  intro ht
  have hscan : scanLength limit (digits ++ 0x3A :: (block ++ [0x2C])) = _ :=
    scanLength_stop hd (by decide)
  have hfeed : feed { limit } (digits ++ 0x3A :: (block ++ [0x2C])) =
    takeLength { limit, pending := digits ++ 0x3A :: (block ++ [0x2C]) } := rfl
  rw [hfeed] at ht
  rcases takeLength_cases ht with ⟨_, _, hn, _⟩ | ⟨hs, _⟩ | ⟨size, rest, hs, hh⟩
  · cases hn
  · have hnone := hscan.symm.trans hs
    split_ifs at hnone
    cases hnone
  · have hsome := hscan.symm.trans hs
    split_ifs at hsome
    cases hsome
    exact takeHeaders_ne_incomplete (by simp [hvalue]) hh

end Reader

namespace Connection

/-- The reader gets what has just arrived, or nothing: that once, when the check has just passed. -/
def Source (past : List Event) (data : Bytes) : Prop :=
  (data ≠ [] ∧ ∃ start, past = start ++ [.received data]) ∨
    (data = [] ∧ (∃ start request, past = start ++ [.checked request (.ok ())]) ∧
      ∀ said r, .fed [] said r ∉ past)

/-- A feeding in its place, after the events of `past`. -/
structure Feeding (s : Settings) (past : List Event) (data : Bytes)
    (said : Except Reader.Fault Reader.Progress) (r : Reader) : Prop where
  source : Source past data
  headers_once : said = .ok .headersDone → ∀ data r, .fed data (.ok .headersDone) r ∉ past
  env_kept : ∀ data r', .fed data (.ok .headersDone) r' ∈ past → r.request.env = r'.request.env
  not_invalid : said ≠ .error .invalidContentLength
  body_checked : r.request.body ≠ [] → ∃ request, .checked request (.ok ()) ∈ past
  body_fits : r.request.body ≠ [] → r.request.BodyFits s

/-- A check in its place: right after the end of the headers, before any byte of the body. -/
structure Checking (s : Settings) (past : List Event) (request : Request)
    (verdict : Except Refusal Unit) : Prop where
  headers_done : ∃ start data r, past = start ++ [.fed data (.ok .headersDone) r] ∧
    r.request = request
  body : request.body = []
  verdict : verdict = s.check request.env

/-- Feedings and checks are in place, and the check follows on the end of the headers. -/
structure Gated (s : Settings) (events : List Event) : Prop where
  feeding : ∀ past data said r later, events = past ++ .fed data said r :: later →
    Feeding s past data said r
  checking : ∀ past request verdict later, events = past ++ .checked request verdict :: later →
    Checking s past request verdict
  checked_next : ∀ past data r later, events = past ++ .fed data (.ok .headersDone) r :: later →
    ∃ verdict rest, later = .checked r.request verdict :: rest

def Event.InPlace (s : Settings) (past : List Event) : Event → Prop
  | .received _ => True
  | .fed data said r => Feeding s past data said r
  | .checked request verdict => Checking s past request verdict

/-- The events are in place, each after those of `past` and those before it. -/
def InPlace (s : Settings) (past : List Event) : List Event → Prop
  | [] => True
  | event :: events => event.InPlace s past ∧ InPlace s (past ++ [event]) events

theorem inPlace_append {past events events' : List Event} :
    InPlace s past (events ++ events') ↔
      InPlace s past events ∧ InPlace s (past ++ events) events' := by
  induction events generalizing past with
  | nil => simp [InPlace]
  | cons event events ih => simp [InPlace, ih, and_assoc]

/-- How a loop stands to what has happened in it: before the end of the headers,
at the gate, in the body, or at the end of the request. -/
inductive Loop.Follows (s : Settings) (past : List Event) : Loop → Prop
  | head {r unread} : r.InHead → r.request.body = [] →
      (∀ data r', .fed data (.ok .headersDone) r' ∉ past) → (∀ said r', .fed [] said r' ∉ past) →
      Follows s past ⟨r, .incomplete, unread⟩
  | gate {r unread start data} : past = start ++ [.fed data (.ok .headersDone) r] →
      r.phase = .body → r.request.body = [] → (∀ data r', .fed data (.ok .headersDone) r' ∉ start) →
      (∀ said r', .fed [] said r' ∉ past) → Follows s past ⟨r, .headersDone, unread⟩
  | body {r unread request} : .checked request (.ok ()) ∈ past → r.phase = .body →
      r.request.BodyFits s →
      (∀ data r', .fed data (.ok .headersDone) r' ∈ past → r.request.env = r'.request.env) →
      Follows s past ⟨r, .incomplete, unread⟩
  | done {r unread start data} : past = start ++ [.fed data (.ok .done) r] →
      Follows s past ⟨r, .done, unread⟩

section Place

variable {past : List Event} {data : Bytes} {said : Except Reader.Fault Reader.Progress}
  {r r' : Reader}

theorem feeding_head (hr : r.InHead) (hb : r.request.body = [])
    (hh : ∀ data r', .fed data (.ok .headersDone) r' ∉ past) (hne : data ≠ [])
    (hf : r.feed data = (said, r')) :
    Feeding s (past ++ [.received data]) data said r' := by
  obtain ⟨hbody, -, hinvalid, -⟩ := Reader.feed_early hr hf
  have hempty : r'.request.body = [] := hbody.trans hb
  have hheaders : ∀ data' r', .fed data' (.ok .headersDone) r' ∉ past ++ [.received data] := by
    simpa using hh
  constructor
  case source => exact .inl ⟨hne, past, rfl⟩
  case headers_once => exact fun _ => hheaders
  case env_kept => exact fun _ _ hm => absurd hm (hheaders _ _)
  case not_invalid => exact hinvalid
  case body_checked => exact absurd hempty
  case body_fits => exact absurd hempty

theorem feeding_body {request : Request} (hq : .checked request (.ok ()) ∈ past)
    (hsource : Source past data) (hr : r.phase = .body) (hfits : r.request.BodyFits s)
    (henv : ∀ data r', .fed data (.ok .headersDone) r' ∈ past → r.request.env = r'.request.env)
    (hf : r.feed data = (said, r')) : Feeding s past data said r' := by
  obtain ⟨hsaid, hkept, hfits'⟩ := Reader.feed_body hr hfits hf
  constructor
  case source => exact hsource
  case headers_once =>
    rintro rfl
    exact absurd hf (Reader.feed_ne_headersDone hr)
  case env_kept => exact fun _ _ hm => hkept.trans (henv _ _ hm)
  case not_invalid =>
    rintro rfl
    simp at hsaid
  case body_checked => exact fun _ => ⟨request, hq⟩
  case body_fits => exact fun _ => hfits'

end Place

namespace Loop

variable {l : Loop} {events past : List Event} {event : Event} {next : Stage ⊕ Loop}
  {r : Reader} {data : Bytes} {said : Reader.Progress} {unread : List Bytes} {stage : Stage}

theorem Follows.feed_head (hr : r.InHead) (hb : r.request.body = [])
    (hh : ∀ data r', .fed data (.ok .headersDone) r' ∉ past)
    (he : ∀ said r', .fed [] said r' ∉ past) (hne : data ≠ [])
    (hf : feed ⟨r, said, unread⟩ data = (event, next)) :
    event.InPlace s (past ++ [.received data]) ∧
      ∀ l', next = .inr l' → l'.Follows s (past ++ [.received data, event]) := by
  rcases feed_cases hf with ⟨fault, r', hfeed, rfl, rfl⟩ | ⟨said, r', hfeed, rfl, rfl⟩
  · exact ⟨feeding_head hr hb hh hne hfeed, nofun⟩
  · refine ⟨feeding_head hr hb hh hne hfeed, ?_⟩
    rintro _ ⟨⟩
    obtain ⟨hbody, hdone, -, hwaits⟩ := Reader.feed_early hr hfeed
    have hempty : r'.request.body = [] := hbody.trans hb
    cases said with
    | incomplete =>
      exact .head (hwaits rfl) hempty (by simpa using hh) (by simpa [Ne.symm hne] using he)
    | headersDone =>
      have hp := Reader.phase_of_headersDone hfeed
      exact .gate (List.append_assoc past [_] [_]).symm hp hempty (by simpa using hh)
        (by simpa [Ne.symm hne] using he)
    | done => exact absurd rfl hdone

theorem Follows.feed_body {request : Request} (hq : .checked request (.ok ()) ∈ past)
    (hsource : Source past data) (hr : r.phase = .body) (hfits : r.request.BodyFits s)
    (henv : ∀ data r', .fed data (.ok .headersDone) r' ∈ past → r.request.env = r'.request.env)
    (hf : feed ⟨r, said, unread⟩ data = (event, next)) :
    event.InPlace s past ∧ ∀ l', next = .inr l' → l'.Follows s (past ++ [event]) := by
  rcases feed_cases hf with ⟨fault, r', hfeed, rfl, rfl⟩ | ⟨said, r', hfeed, rfl, rfl⟩
  · exact ⟨feeding_body hq hsource hr hfits henv hfeed, nofun⟩
  · refine ⟨feeding_body hq hsource hr hfits henv hfeed, ?_⟩
    rintro _ ⟨⟩
    obtain ⟨hsaid, hkept, hfits'⟩ := Reader.feed_body hr hfits hfeed
    rcases hsaid with h | ⟨h, hr'⟩
    · cases h
      exact .done rfl
    · cases h
      have henv' : ∀ data r'', .fed data (.ok .headersDone) r'' ∈ past →
          r'.request.env = r''.request.env := fun _ _ hm => hkept.trans (henv _ _ hm)
      exact .body (List.mem_append_left _ hq) hr' hfits' (by simpa using henv')

/-- A turn puts its events in place and leaves a loop that follows them. -/
theorem Follows.turn (hl : l.Follows s past) (ht : Turns s l events next) :
    InPlace s past events ∧ ∀ l', next = .inr l' → l'.Follows s (past ++ events) := by
  cases hl with
  | done =>
    cases ht with
    | accepted => exact ⟨trivial, nofun⟩
  | head hr hb hh he =>
    cases ht with
    | closed => exact ⟨trivial, nofun⟩
    | read hne hf =>
      obtain ⟨hplace, hnext⟩ := Follows.feed_head hr hb hh he hne hf
      exact ⟨⟨trivial, hplace, trivial⟩, hnext⟩
  | @gate r unread start data hp hr hb hh he =>
    have hcheck : ∀ verdict, verdict = s.check r.request.env → Checking s past r.request verdict :=
      fun verdict hv => ⟨⟨start, data, r, hp, rfl⟩, hb, hv⟩
    cases ht with
    | refused hc => exact ⟨⟨hcheck _ hc.symm, trivial⟩, nofun⟩
    | @passed _ _ event _ hc hf =>
      have hpassed : ∀ said r', .fed [] said r' ∉ past ++ [.checked r.request (.ok ())] := by
        simpa using he
      have henv : ∀ data r', .fed data (.ok .headersDone) r' ∈
          past ++ [.checked r.request (.ok ())] → r.request.env = r'.request.env := by
        intro data' r' hm
        simp only [hp, List.mem_append, List.mem_singleton, reduceCtorEq, or_false] at hm
        rcases hm with hm | hm
        · exact absurd hm (hh _ _)
        · cases hm; rfl
      have hq : .checked r.request (.ok ()) ∈ past ++ [.checked r.request (.ok ())] := by simp
      obtain ⟨hplace, hnext⟩ := Follows.feed_body hq
        (.inr ⟨rfl, ⟨past, r.request, rfl⟩, hpassed⟩) hr (Request.bodyFits_of_check hc hb) henv hf
      exact ⟨⟨hcheck _ hc.symm, hplace, trivial⟩, by simpa using hnext⟩
  | body hq hr hfits henv =>
    cases ht with
    | closed => exact ⟨trivial, nofun⟩
    | read hne hf =>
      obtain ⟨hplace, hnext⟩ := Follows.feed_body (List.mem_append_left _ hq)
        (.inl ⟨hne, _, rfl⟩) hr hfits (by simpa using henv) hf
      exact ⟨⟨trivial, hplace, trivial⟩, by simpa using hnext⟩

theorem Follows.inPlace (hl : l.Follows s past) (h : History s l events stage) :
    InPlace s past events := by
  induction h generalizing past with
  | stop ht => exact (hl.turn (turn_cases ht)).1
  | go ht _ ih =>
    obtain ⟨hplace, hnext⟩ := hl.turn (turn_cases ht)
    exact inPlace_append.mpr ⟨hplace, ih (hnext _ rfl)⟩

theorem Follows.accepted {request : Request} (hl : l.Follows s past)
    (h : History s l events (.accepted request)) :
    ∃ start data r, past ++ events = start ++ [.fed data (.ok .done) r] ∧ r.request = request := by
  generalize hstage : Stage.accepted request = stage at h
  induction h generalizing past with
  | stop ht =>
    subst hstage
    cases turn_cases ht with
    | accepted =>
      cases hl with
      | done hp => exact ⟨_, _, _, (List.append_nil _).trans hp, rfl⟩
    | passed _ hf => rcases feed_cases hf with ⟨_, _, _, _, hn⟩ | ⟨_, _, _, _, hn⟩ <;> cases hn
    | read _ hf => rcases feed_cases hf with ⟨_, _, _, _, hn⟩ | ⟨_, _, _, _, hn⟩ <;> cases hn
  | go ht _ ih =>
    rw [← List.append_assoc]
    exact ih ((hl.turn (turn_cases ht)).2 _ rfl) hstage

theorem follows_start (s : Settings) (chunks : List Bytes) : (start s chunks).Follows s [] :=
  .head (by simp [Reader.InHead]) rfl (by simp) (by simp)

end Loop

namespace History

variable {l : Loop} {events : List Event} {stage : Stage} {r : Reader} {unread : List Bytes}

theorem checked_of_headersDone (h : History s ⟨r, .headersDone, unread⟩ events stage) :
    ∃ verdict rest, events = .checked r.request verdict :: rest := by
  cases h with
  | stop ht => cases Loop.turn_cases ht <;> exact ⟨_, _, rfl⟩
  | go ht _ => cases Loop.turn_cases ht; exact ⟨_, _, rfl⟩

theorem checked_next (h : History s l events stage) :
    ∀ past data r later, events = past ++ .fed data (.ok .headersDone) r :: later →
      ∃ verdict rest, later = .checked r.request verdict :: rest := by
  induction h with
  | stop ht =>
    rintro past data r later rfl
    obtain ⟨-, _, hn⟩ := turn_fed ht
    cases hn
  | go ht hl' ih =>
    intro past data r later he
    rcases List.append_eq_append_iff.mp he with ⟨past', rfl, he'⟩ | ⟨rest, rfl, he'⟩
    · exact ih past' data r later he'
    · cases rest with
      | nil => exact ih [] data r later he'.symm
      | cons event rest =>
        obtain ⟨rfl, rfl⟩ := List.cons.inj he'
        obtain ⟨rfl, _, hn⟩ := turn_fed ht
        cases hn
        exact checked_of_headersDone hl'

theorem gated {chunks : List Bytes} (h : History s (.start s chunks) events stage) :
    Gated s events := by
  have hplace := (Loop.follows_start s chunks).inPlace h
  constructor
  · rintro past data said r later rfl
    exact (inPlace_append.mp hplace).2.1
  · rintro past request verdict later rfl
    exact (inPlace_append.mp hplace).2.1
  · exact h.checked_next

end History

variable {head rest : Bytes} {rejection : Rejection} {r : Reader} {chunks : List Bytes}

/-- Headers that have passed leave nothing to reject. -/
theorem Stage.ofOutcome_headersDone_rejected_iff (hr : r.phase = .body) (hb : r.request.body = []) :
    ofOutcome s (.ok .headersDone, r) = .rejected rejection ↔
      ∃ refusal, s.check r.request.env = .error refusal ∧ rejection = .refused refusal := by
  cases hc : s.check r.request.env with
  | error refusal => simp [ofOutcome, hc, eq_comm]
  | ok =>
    rw [ofOutcome_headersDone hr hc]
    rcases hf : r.feed [] with ⟨said, r'⟩
    obtain ⟨rfl | ⟨rfl, -⟩, -⟩ := Reader.feed_body hr (Request.bodyFits_of_check hc hb) hf <;>
      simp [ofOutcome]

theorem rejected_append_iff (h : Reader.IsHead head) :
    Stage.step s (Stage.start s) (head ++ rest) = .rejected rejection ↔
      Stage.step s (Stage.start s) head = .rejected rejection := by
  simp only [Stage.start, Stage.step, Reader.feed_append]
  rcases hf : Reader.feed { limit := s.maxHeaderSize } head with ⟨fault | said, r⟩
  · rfl
  · have hin : Reader.InHead { limit := s.maxHeaderSize } := by simp [Reader.InHead]
    obtain ⟨hbody, hdone, -⟩ := Reader.feed_early hin hf
    cases said with
    | incomplete => exact absurd hf (Reader.feed_head_ne_incomplete h)
    | done => exact absurd rfl hdone
    | headersDone =>
      have hp := Reader.phase_of_headersDone hf
      change Stage.ofOutcome s (.ok .headersDone, r.push rest) = _ ↔ _
      rw [Stage.ofOutcome_headersDone_rejected_iff hp hbody,
        Stage.ofOutcome_headersDone_rejected_iff (r := r.push rest) hp hbody, Reader.request_push]

/-- The loop that reads a request ends on every list of pieces, and all that happens
in it is in place: the headers are complete at most once and are checked then, and
only then; the body begins after the check has passed. What is rejected, and why,
is decided by the part up to the comma. -/
theorem body_gated (h : [] ∉ chunks) :
    (∃ events, History s (.start s chunks) events (Stage.run s chunks)) ∧
    (∀ events stage, History s (.start s chunks) events stage →
      stage = Stage.run s chunks ∧ Gated s events ∧
      ∀ request, stage = .accepted request →
        ∃ past data r, events = past ++ [.fed data (.ok .done) r] ∧ r.request = request) ∧
    ∀ head rest rest' chunks', Reader.IsHead head → chunks.flatten = head ++ rest →
      chunks'.flatten = head ++ rest' → ∀ rejection,
        (Stage.run s chunks = .rejected rejection ↔ Stage.run s chunks' = .rejected rejection) := by
  obtain ⟨events, hrun⟩ := Loop.ends_run (s := s) h
  refine ⟨⟨events, hrun⟩, fun events' stage hl => ?_, ?_⟩
  · obtain ⟨-, rfl⟩ := hrun.unique hl
    refine ⟨rfl, hl.gated, fun request hr => ?_⟩
    rw [hr] at hl
    exact (Loop.follows_start s chunks).accepted hl
  · intro head rest rest' chunks' hhead hc hc' rejection
    rw [Stage.run_eq_step, Stage.run_eq_step, hc, hc', rejected_append_iff hhead,
      rejected_append_iff hhead]

theorem body_gated_padded :
    let sent := Wire.padded.bytes
    let chunks := [sent.take 9, sent.drop 9]
    let chunks' := [sent.dropLast, Utf8.encode "y"]
    [] ∉ chunks ∧
      (∃ events, History {} (.start {} chunks) events (Stage.run {} chunks) ∧ Gated {} events) ∧
      ∀ rejection,
        (Stage.run {} chunks = .rejected rejection ↔
          Stage.run {} chunks' = .rejected rejection) := by
  intro sent chunks chunks'
  have hne : [] ∉ chunks := by decide
  have hhead : Reader.IsHead sent.dropLast :=
    ⟨Wire.padded.length, Wire.padded.block, by decide, Wire.proper_padded.length_digits, by decide⟩
  obtain ⟨⟨events, hrun⟩, hall, hreject⟩ := body_gated (s := {}) hne
  exact ⟨hne, ⟨events, hrun, (hall _ _ hrun).2.1⟩,
    hreject _ (Utf8.encode "x") (Utf8.encode "y") chunks' hhead (by decide) (by decide)⟩

end Connection

end ScgiStub
