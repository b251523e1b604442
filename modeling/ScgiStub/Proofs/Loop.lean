import Mathlib.Data.List.Basic
import ScgiStub.Proofs.Chunking

/-! # The loop that reads a request

The loop turn by turn, with everything that happens in it. It ends on every list
of pieces that a client can send, in the same way as the reading in pieces.
-/

namespace ScgiStub

namespace Connection

variable {s : Settings}

/-- What happens while a request is read. -/
inductive Event where
  | received (chunk : Bytes)
  /-- The reader takes bytes, says something, and is left so. -/
  | fed (data : Bytes) (said : Except Reader.Fault Reader.Progress) (left : Reader)
  | checked (request : Request) (verdict : Except Refusal Unit)

/-- The loop between two turns: its reader, what that said last, and what reading
from the connection will give. -/
structure Loop where
  reader : Reader
  said : Reader.Progress
  unread : List Bytes

namespace Loop

variable {l : Loop} {data : Bytes} {event : Event} {events : List Event} {next : Stage ⊕ Loop}
  {r r' : Reader} {unread : List Bytes} {fault : Reader.Fault} {said said' : Reader.Progress}

def start (s : Settings) (chunks : List Bytes) : Loop :=
  { reader := { limit := s.maxHeaderSize }, said := .incomplete, unread := chunks }

def feed (l : Loop) (data : Bytes) : Event × (Stage ⊕ Loop) :=
  match l.reader.feed data with
  | (.error fault, r) => (.fed data (.error fault) r, .inl (.rejected (.unreadable fault)))
  | (.ok said, r) => (.fed data (.ok said) r, .inr { l with reader := r, said })

/-- One turn of the loop: what happens in it, and how the reading stands at the
end or goes on. To read nothing is to see the end of the connection. -/
def turn (s : Settings) (l : Loop) : List Event × (Stage ⊕ Loop) :=
  match l.said with
  | .done => ([], .inl (.accepted l.reader.request))
  | .headersDone =>
    match s.check l.reader.request.env with
    | .error refusal =>
      ([.checked l.reader.request (.error refusal)], .inl (.rejected (.refused refusal)))
    | .ok () =>
      let (event, next) := l.feed []
      ([.checked l.reader.request (.ok ()), event], next)
  | .incomplete =>
    match l.unread with
    | [] | [] :: _ => ([], .inl (.waiting l.reader))
    | chunk :: unread =>
      let (event, next) := feed { l with unread } chunk
      ([.received chunk, event], next)

theorem feed_fault (h : r.feed data = (.error fault, r')) : feed ⟨r, said, unread⟩ data =
    (.fed data (.error fault) r', .inl (.rejected (.unreadable fault))) := by
  simp only [feed, h]

theorem feed_ok (h : r.feed data = (.ok said', r')) : feed ⟨r, said, unread⟩ data =
    (.fed data (.ok said') r', .inr ⟨r', said', unread⟩) := by
  simp only [feed, h]

theorem feed_cases (h : l.feed data = (event, next)) :
    (∃ fault r, l.reader.feed data = (.error fault, r) ∧ event = .fed data (.error fault) r ∧
      next = .inl (.rejected (.unreadable fault))) ∨
    (∃ said r, l.reader.feed data = (.ok said, r) ∧ event = .fed data (.ok said) r ∧
      next = .inr { l with reader := r, said }) := by
  obtain ⟨r, said, unread⟩ := l
  rcases hf : r.feed data with ⟨fault | said', r'⟩
  · rw [feed_fault hf] at h
    cases h
    exact .inl ⟨fault, r', rfl, rfl, rfl⟩
  · rw [feed_ok hf] at h
    cases h
    exact .inr ⟨said', r', rfl, rfl, rfl⟩

inductive Turns (s : Settings) : Loop → List Event → Stage ⊕ Loop → Prop
  | accepted (r : Reader) (unread : List Bytes) :
      Turns s ⟨r, .done, unread⟩ [] (.inl (.accepted r.request))
  | refused {r : Reader} {unread : List Bytes} {refusal : Refusal} :
      s.check r.request.env = .error refusal →
      Turns s ⟨r, .headersDone, unread⟩ [.checked r.request (.error refusal)]
        (.inl (.rejected (.refused refusal)))
  | passed {r : Reader} {unread : List Bytes} {event : Event} {next : Stage ⊕ Loop} :
      s.check r.request.env = .ok () → feed ⟨r, .headersDone, unread⟩ [] = (event, next) →
      Turns s ⟨r, .headersDone, unread⟩ [.checked r.request (.ok ()), event] next
  | closed {r : Reader} {unread : List Bytes} : unread.head?.getD [] = [] →
      Turns s ⟨r, .incomplete, unread⟩ [] (.inl (.waiting r))
  | read {r : Reader} {unread : List Bytes} {event : Event} {next : Stage ⊕ Loop}
      {chunk : Bytes} : chunk ≠ [] → feed ⟨r, .incomplete, unread⟩ chunk = (event, next) →
      Turns s ⟨r, .incomplete, chunk :: unread⟩ [.received chunk, event] next

theorem turn_cases (h : l.turn s = (events, next)) : Turns s l events next := by
  obtain ⟨r, said, unread⟩ := l
  cases said with
  | done => cases h; exact .accepted r unread
  | headersDone =>
    cases hc : s.check r.request.env with
    | error refusal => simp only [turn, hc] at h; cases h; exact .refused hc
    | ok => simp only [turn, hc] at h; cases h; exact .passed hc rfl
  | incomplete =>
    match unread with
    | [] => cases h; exact .closed rfl
    | [] :: _ => cases h; exact .closed rfl
    | (b :: bs) :: unread => cases h; exact .read (List.cons_ne_nil b bs) rfl

end Loop

/-- The events of a loop from here to its end, and how the reading then stands. -/
inductive History (s : Settings) : Loop → List Event → Stage → Prop
  | stop {l events stage} : l.turn s = (events, .inl stage) → History s l events stage
  | go {l l' events events' stage} : l.turn s = (events, .inr l') →
      History s l' events' stage → History s l (events ++ events') stage

namespace History

variable {l : Loop} {events events' past later : List Event} {stage stage' : Stage} {data : Bytes}
  {r : Reader}

/-- A loop has one history. -/
theorem unique (h : History s l events stage) (h' : History s l events' stage') :
    events = events' ∧ stage = stage' := by
  induction h generalizing events' with
  | stop ht =>
    cases h' with
    | stop ht' => rw [ht] at ht'; cases ht'; exact ⟨rfl, rfl⟩
    | go ht' _ => rw [ht] at ht'; cases ht'
  | go ht _ ih =>
    cases h' with
    | stop ht' => rw [ht] at ht'; cases ht'
    | go ht' hl' =>
      rw [ht] at ht'; cases ht'
      obtain ⟨rfl, rfl⟩ := ih hl'
      exact ⟨rfl, rfl⟩

theorem eq_second_of_append {a b event : Event} (h : past ++ event :: later = [a, b])
    (hne : event ≠ a) : event = b ∧ later = [] := by
  match past with
  | [] => exact absurd (List.cons.inj h).1 hne
  | [_] => simpa using (List.cons.inj h).2
  | _ :: _ :: _ => simp at h

theorem turn_fed {said : Reader.Progress} {next : Stage ⊕ Loop}
    (h : l.turn s = (past ++ .fed data (.ok said) r :: later, next)) :
    later = [] ∧ ∃ unread, next = .inr ⟨r, said, unread⟩ := by
  generalize he : past ++ .fed data (.ok said) r :: later = events at h
  cases Loop.turn_cases h with
  | accepted => simp at he
  | closed => simp at he
  | refused => simp [List.append_eq_cons_iff] at he
  | passed _ hf =>
    obtain ⟨hevent, hlater⟩ := eq_second_of_append he nofun
    rcases Loop.feed_cases hf with ⟨_, _, _, rfl, _⟩ | ⟨_, _, _, rfl, rfl⟩ <;> cases hevent
    exact ⟨hlater, _, rfl⟩
  | read _ hf =>
    obtain ⟨hevent, hlater⟩ := eq_second_of_append he nofun
    rcases Loop.feed_cases hf with ⟨_, _, _, rfl, _⟩ | ⟨_, _, _, rfl, rfl⟩ <;> cases hevent
    exact ⟨hlater, _, rfl⟩

end History

namespace Stage

/-- The reading is over, whatever else comes. -/
def Decided : Stage → Prop
  | .waiting _ => False
  | _ => True

theorem decided_accepted (request : Request) : (accepted request).Decided := trivial

theorem decided_rejected (rejection : Rejection) : (rejected rejection).Decided := trivial

theorem step_of_decided {stage : Stage} (h : stage.Decided) (chunk : Bytes) :
    step s stage chunk = stage := by
  cases stage with
  | waiting => exact h.elim
  | _ => rfl

theorem foldl_of_decided {stage : Stage} (h : stage.Decided) (chunks : List Bytes) :
    chunks.foldl (step s) stage = stage :=
  List.foldl_fixed' (step_of_decided h) chunks

end Stage

def Loop.Ends (s : Settings) (l : Loop) (stage : Stage) : Prop :=
  ∃ events, History s l events stage

namespace Loop

variable {l : Loop} {stage : Stage} {r : Reader} {unread : List Bytes}

theorem Ends.go {l' : Loop} {events : List Event} (ht : l.turn s = (events, .inr l'))
    (h : l'.Ends s stage) : l.Ends s stage := by
  obtain ⟨events', h⟩ := h
  exact ⟨_, .go ht h⟩

theorem turn_read {chunk : Bytes} (hne : chunk ≠ []) : turn s ⟨r, .incomplete, chunk :: unread⟩ =
    ([.received chunk, (feed ⟨r, .incomplete, unread⟩ chunk).1],
      (feed ⟨r, .incomplete, unread⟩ chunk).2) := by
  cases chunk with
  | nil => exact absurd rfl hne
  | cons => rfl

theorem turn_passed (h : s.check r.request.env = .ok ()) : turn s ⟨r, .headersDone, unread⟩ =
    ([.checked r.request (.ok ()), (feed ⟨r, .headersDone, unread⟩ []).1],
      (feed ⟨r, .headersDone, unread⟩ []).2) := by
  simp only [turn, h]

theorem turn_refused {refusal : Refusal} (h : s.check r.request.env = .error refusal) :
    turn s ⟨r, .headersDone, unread⟩ =
      ([.checked r.request (.error refusal)], .inl (.rejected (.refused refusal))) := by
  simp only [turn, h]

theorem ends_headersDone (hr : r.phase = .body)
    (hrest : ∀ r', Ends s ⟨r', .incomplete, unread⟩ (unread.foldl (Stage.step s) (.waiting r'))) :
    Ends s ⟨r, .headersDone, unread⟩
      (unread.foldl (Stage.step s) (.ofOutcome s (.ok .headersDone, r))) := by
  cases hc : s.check r.request.env with
  | error refusal =>
    simp only [Stage.ofOutcome, hc]
    rw [Stage.foldl_of_decided (Stage.decided_rejected _)]
    exact ⟨_, .stop (turn_refused hc)⟩
  | ok =>
    rw [Stage.ofOutcome_headersDone hr hc]
    rcases hf : r.feed [] with ⟨fault | said, r'⟩
    · rw [Stage.ofOutcome, Stage.foldl_of_decided (Stage.decided_rejected _)]
      exact ⟨_, .stop (by rw [turn_passed hc, feed_fault hf])⟩
    · have ht : turn s ⟨r, .headersDone, unread⟩ = _ := turn_passed hc
      rw [feed_ok hf] at ht
      cases said with
      | incomplete => exact .go ht (hrest r')
      | headersDone => exact (Reader.feed_ne_headersDone hr hf).elim
      | done =>
        rw [Stage.ofOutcome, Stage.foldl_of_decided (Stage.decided_accepted _)]
        exact .go ht ⟨_, .stop rfl⟩

/-- The loop ends on every list of pieces, in the same way as the reading in pieces. -/
theorem ends_foldl {chunks : List Bytes} (h : [] ∉ chunks) (r : Reader) :
    Ends s ⟨r, .incomplete, chunks⟩ (chunks.foldl (Stage.step s) (.waiting r)) := by
  induction chunks generalizing r with
  | nil => exact ⟨_, .stop rfl⟩
  | cons chunk chunks ih =>
    obtain ⟨hne, hrest⟩ := not_or.mp fun hm => h (List.mem_cons.mpr hm)
    have ht : turn s ⟨r, .incomplete, chunk :: chunks⟩ = _ := turn_read (Ne.symm hne)
    rw [List.foldl_cons, Stage.step]
    rcases hf : r.feed chunk with ⟨fault | said, r'⟩
    · rw [feed_fault hf] at ht
      rw [Stage.ofOutcome, Stage.foldl_of_decided (Stage.decided_rejected _)]
      exact ⟨_, .stop ht⟩
    · rw [feed_ok hf] at ht
      cases said with
      | incomplete => exact .go ht (ih hrest r')
      | headersDone =>
        exact .go ht (ends_headersDone (Reader.phase_of_headersDone hf) (ih hrest))
      | done =>
        rw [Stage.ofOutcome, Stage.foldl_of_decided (Stage.decided_accepted _)]
        exact .go ht ⟨_, .stop rfl⟩

theorem ends_run {chunks : List Bytes} (h : [] ∉ chunks) :
    (start s chunks).Ends s (Stage.run s chunks) :=
  ends_foldl h _

end Loop

end Connection

end ScgiStub
