import Mathlib.Algebra.GroupWithZero.Nat
import ScgiStub.Proofs.Gate

/-! # What a connection holds

Whatever a client sends, the server keeps little of it at any time: of what it cannot
use yet less than the limits leave room for, and of what it has used no more headers
and no more body than they allow.
-/

namespace ScgiStub

variable {s : Settings}

namespace Entries

def weight (entries : List (String × String)) : Nat :=
  (entries.map fun (name, value) => (Utf8.encode name).length + (Utf8.encode value).length).sum

theorem weight_insert_le (name value : String) (entries : List (String × String)) :
    weight (insert name value entries) ≤
      weight entries + ((Utf8.encode name).length + (Utf8.encode value).length) := by
  induction entries with
  | nil => simp [insert, weight]
  | cons e rest ih =>
    obtain ⟨other, old⟩ := e
    unfold insert
    split
    · next h =>
      subst h
      simp only [weight, List.map_cons, List.sum_cons]
      omega
    · simp only [weight, List.map_cons, List.sum_cons] at ih ⊢
      omega

end Entries

def Environment.weight (env : Environment) : Nat :=
  Entries.weight env.entries

@[simp] theorem Environment.weight_empty : (∅ : Environment).weight = 0 := rfl

namespace HeaderBlock

variable {env : Environment} {fields row : List Bytes} {block : Bytes}

theorem weight_addPair_le (env : Environment) (name value : Bytes) :
    (addPair env name value).2.weight ≤ env.weight + (name.length + value.length) := by
  unfold addPair
  split
  · exact Nat.le_add_right _ _
  · split
    · exact Nat.le_add_right _ _
    · next n hn =>
      split
      · exact Nat.le_add_right _ _
      · next v hv =>
        rw [Utf8.decode_eq_ok_iff.mp hn, Utf8.decode_eq_ok_iff.mp hv]
        exact Entries.weight_insert_le n v env.entries

theorem weight_addFields_le (env : Environment) (fields : List Bytes) :
    (addFields env fields).2.weight ≤ env.weight + (fields.map List.length).sum := by
  fun_induction addFields env fields with
  | case1 env => simp
  | case2 env field => simp
  | case3 env name value fields fault env₁ h =>
    have hpair := weight_addPair_le env name value
    rw [h] at hpair
    simp only [List.map_cons, List.sum_cons] at hpair ⊢
    omega
  | case4 env name value fields env₁ h ih =>
    have hpair := weight_addPair_le env name value
    rw [h] at hpair
    simp only [List.map_cons, List.sum_cons] at hpair ih ⊢
    omega

theorem sum_length_le_flatMap (fields : List Bytes) :
    (fields.map List.length).sum ≤ (fields.flatMap (· ++ [0])).length := by
  induction fields with
  | nil => simp
  | cons field fields ih =>
    simp only [List.map_cons, List.sum_cons, List.flatMap_cons, List.length_append]
    omega

theorem sum_length_split_le (block : Bytes) :
    ((split block).1.map List.length).sum ≤ block.length := by
  have hfields := sum_length_le_flatMap (split block).1
  have hblock := congrArg List.length (flatten_split block)
  rw [List.length_append] at hblock
  omega

/-- Of a block, the environment gets at most the bytes of the block, however many of its
fields have been added. -/
theorem weight_addFields_split_le (env : Environment) (h : row <+: (split block).1) :
    (addFields env row).2.weight ≤ env.weight + block.length := by
  obtain ⟨more, hmore⟩ := h
  have hrow := weight_addFields_le env row
  have hblock := sum_length_split_le block
  rw [← hmore, List.map_append, List.sum_append] at hblock
  omega

theorem weight_decode_le (env : Environment) (block : Bytes) :
    (decode env block).2.weight ≤ env.weight + block.length := by
  unfold decode
  split
  · next fields hs =>
    have hrow : fields <+: (split block).1 := by simp [hs]
    exact weight_addFields_split_le env hrow
  · exact Nat.le_add_right _ _

end HeaderBlock

namespace Reader

variable {r r' r₁ held : Reader} {data : Bytes} {said : Except Fault Progress}

/-- What a reader is in the course of going on: with the length taken, and with the block. -/
inductive Passes : Reader → Reader → Prop
  | now (r : Reader) : Passes r r
  | length {r r' : Reader} {size : Nat} {rest : Bytes} : r.phase = .length →
      scanLength r.limit r.pending = .ok (some (size, rest)) →
      Passes { r with phase := .headers size, pending := rest } r' → Passes r r'
  | headers {r r' : Reader} {block rest : Bytes} {env : Environment} :
      r.phase = .headers block.length → r.pending = block ++ rest →
      HeaderBlock.decode r.request.env block = (.ok (), env) →
      Passes { r with phase := .comma, pending := rest, request := { r.request with env } } r' →
      Passes r r'

inductive Adds (r : Reader) : Reader → Prop
  | row {block rest : Bytes} {row : List Bytes} : r.phase = .headers block.length →
      r.pending = block ++ rest → (HeaderBlock.split block).2 = [] →
      row <+: (HeaderBlock.split block).1 →
      Adds r { r with
        pending := rest
        request := { r.request with env := (HeaderBlock.addFields r.request.env row).2 } }

/-- What a reader is from when bytes come in until it has spoken. -/
def During (r : Reader) (data : Bytes) (r' : Reader) : Prop :=
  (∃ passed, (r.push data).Passes passed ∧ (r' = passed ∨ passed.Adds r')) ∨ r' = (r.feed data).2

/-- The headers are within the limit, and the block is if its size is known. -/
def Frugal (r : Reader) : Prop :=
  match r.phase with
  | .length => r.request.env = ∅
  | .headers size => size ≤ r.limit ∧ r.request.env = ∅
  | .comma | .body | .done => r.request.env.weight ≤ r.limit

/-- The most bytes that a reader keeps when it waits. -/
def room (r : Reader) : Nat :=
  match r.phase with
  | .length => maxDigits
  | .headers size => size - 1
  | .comma | .body | .done => 0

theorem Frugal.weight_le (h : r.Frugal) : r.request.env.weight ≤ r.limit := by
  unfold Frugal at h
  split at h
  · simp [h]
  · simp [h.2]
  all_goals exact h

theorem Frugal.room_le (h : r.Frugal) : r.room ≤ max maxDigits (r.limit - 1) := by
  unfold Frugal at h
  unfold room
  split at h
  · exact Nat.le_max_left _ _
  · have hsize := h.1
    omega
  all_goals exact Nat.zero_le _

theorem Frugal.room_eq_zero (h : r.Frugal) (hl : r.limit = 0) (hp : r.phase ≠ .length) :
    r.room = 0 := by
  unfold Frugal at h
  unfold room
  split at h
  · next hlength => exact absurd hlength hp
  · have hsize := h.1
    omega
  all_goals rfl

theorem Frugal.weight_decode_le {block : Bytes} {env : Environment}
    {result : Except HeaderBlock.Fault Unit} (h : r.Frugal) (hp : r.phase = .headers block.length)
    (hd : HeaderBlock.decode r.request.env block = (result, env)) : env.weight ≤ r.limit := by
  simp only [Frugal, hp] at h
  obtain ⟨hsize, henv⟩ := h
  have hweight := HeaderBlock.weight_decode_le r.request.env block
  rw [hd, henv, Environment.weight_empty, Nat.zero_add] at hweight
  exact hweight.trans hsize

/-- What a reader leaves behind when it has gone on. -/
structure Leaves (r : Reader) (said : Except Fault Progress) (r' : Reader) : Prop where
  limit : r'.limit = r.limit
  pending : r'.pending.length ≤ r.pending.length
  weight : r'.request.env.weight ≤ r.limit
  frugal : ∀ progress, said = .ok progress → r'.Frugal
  room : said = .ok .incomplete → r'.pending.length ≤ r'.room

theorem Leaves.of_le (h : held.Leaves said r') (hl : held.limit = r.limit)
    (hp : held.pending.length ≤ r.pending.length) : r.Leaves said r' where
  limit := h.limit.trans hl
  pending := h.pending.trans hp
  weight := hl ▸ h.weight
  frugal := h.frugal
  room := h.room

theorem takeComma_leaves (hr : r.Frugal) (hp : r.phase = .comma) (h : r.takeComma = (said, r')) :
    r.Leaves said r' := by
  have hw := hr.weight_le
  rcases takeComma_cases h with ⟨hnil, rfl, rfl⟩ | ⟨rest, hrest, rfl, rfl⟩ | ⟨_, _, _, _, rfl, rfl⟩
  · exact ⟨rfl, le_refl _, hw, fun _ _ => hr, fun _ => by simp [hnil]⟩
  · exact ⟨rfl, by simp [hrest], hw, fun _ _ => hw, nofun⟩
  · exact ⟨rfl, le_refl _, hw, nofun, nofun⟩

theorem takeHeaders_leaves {size : Nat} (hr : r.Frugal) (hp : r.phase = .headers size)
    (h : r.takeHeaders size = (said, r')) : r.Leaves said r' := by
  have hw := hr.weight_le
  rcases takeHeaders_cases h with ⟨hfew, rfl, rfl⟩ |
    ⟨block, rest, _, env, hrest, rfl, hd, rfl, rfl⟩ | ⟨block, rest, env, hrest, rfl, hd, hc⟩
  · refine ⟨rfl, le_refl _, hw, fun _ _ => hr, fun _ => ?_⟩
    simp only [Reader.room, hp]
    omega
  all_goals
    have hlimit := hr.weight_decode_le hp hd
    have hpending : rest.length ≤ r.pending.length := by rw [hrest, List.length_append]; omega
  · exact ⟨rfl, hpending, hlimit, nofun, nofun⟩
  · have hcomma : Frugal { r with
        phase := .comma
        pending := rest
        request := { r.request with env } } := hlimit
    exact (takeComma_leaves hcomma rfl hc).of_le rfl hpending

theorem length_le_of_scanLength_none {limit : Nat} {bs : Bytes}
    (h : scanLength limit bs = .ok none) : bs.length ≤ maxDigits := by
  rcases digits_or_stop bs with hb | ⟨digits, stop, rest, rfl, hd, hs⟩
  · rw [scanLength_digits hb] at h
    split at h
    · cases h
    · omega
  · rw [scanLength_stop hd hs] at h
    split_ifs at h
    cases h

theorem takeLength_leaves (hr : r.Frugal) (hp : r.phase = .length)
    (h : r.takeLength = (said, r')) : r.Leaves said r' := by
  have hw := hr.weight_le
  have henv : r.request.env = ∅ := by simpa only [Frugal, hp] using hr
  rcases takeLength_cases h with ⟨fault, _, rfl, rfl⟩ | ⟨hs, rfl, rfl⟩ | ⟨size, rest, hs, hh⟩
  · exact ⟨rfl, le_refl _, hw, nofun, nofun⟩
  · refine ⟨rfl, le_refl _, hw, fun _ _ => hr, fun _ => ?_⟩
    simp only [Reader.room, hp]
    exact length_le_of_scanLength_none hs
  · obtain ⟨digits, hrest, -, -, -, -, hsize⟩ := scanLength_some_iff.mp hs
    have hheaders : Frugal { r with phase := .headers size, pending := rest } := ⟨hsize, henv⟩
    refine (takeHeaders_leaves hheaders rfl hh).of_le rfl ?_
    rw [hrest, List.length_append, List.length_cons]
    simp only
    omega

theorem takeBody_leaves (hr : r.Frugal) (hp : r.phase = .body)
    (hb : ∀ size, r.request.contentLength? = some size → r.request.body.length ≤ size)
    (h : r.takeBody = (said, r')) : r.Leaves said r' := by
  have hw := hr.weight_le
  rcases takeBody_cases h with ⟨_, rfl, rfl⟩ | ⟨size, hc, hl, rfl, rfl⟩ | ⟨size, hc, hl, rfl, rfl⟩
  · exact ⟨rfl, le_refl _, hw, nofun, nofun⟩
  · exact ⟨rfl, by simp [fill], hw, fun _ _ => hw, nofun⟩
  · refine ⟨rfl, by simp [fill], hw, fun _ _ => hr, fun _ => ?_⟩
    have hle := hb size hc
    simp only [fill, List.length_append, List.length_take] at hl
    simp only [fill, Reader.room, hp, List.length_drop]
    omega

theorem feed_leaves (hr : r.Frugal) (hb : r.phase = .body → ∀ size,
    r.request.contentLength? = some size → r.request.body.length ≤ size)
    (h : r.feed data = (said, r')) : (r.push data).Leaves said r' := by
  have hpush : (r.push data).Frugal := hr
  cases hp : r.phase with
  | done =>
    rw [feed_of_done hp] at h
    cases h
    exact ⟨rfl, le_refl _, hr.weight_le, fun _ _ => hr, nofun⟩
  | length =>
    rw [feed_eq_resume, resume, phase_push, hp] at h
    exact takeLength_leaves hpush hp h
  | headers size =>
    rw [feed_eq_resume, resume, phase_push, hp] at h
    exact takeHeaders_leaves hpush hp h
  | comma =>
    rw [feed_eq_resume, resume, phase_push, hp] at h
    exact takeComma_leaves hpush hp h
  | body =>
    rw [feed_eq_resume, resume, phase_push, hp] at h
    exact takeBody_leaves hpush hp (hb hp) h

theorem Passes.frugal (h : r.Passes r') (hr : r.Frugal) :
    r'.Frugal ∧ r'.limit = r.limit ∧ r'.pending.length ≤ r.pending.length ∧
      r'.request.body = r.request.body := by
  induction h with
  | now r => exact ⟨hr, rfl, le_refl _, rfl⟩
  | length hp hs _ ih =>
    obtain ⟨digits, hrest, -, -, -, -, hsize⟩ := scanLength_some_iff.mp hs
    have henv := by simpa only [Frugal, hp] using hr
    obtain ⟨hfrugal, hlimit, hpending, hbody⟩ := ih ⟨hsize, henv⟩
    refine ⟨hfrugal, hlimit, ?_, hbody⟩
    rw [hrest, List.length_append, List.length_cons]
    simp only at hpending
    omega
  | headers hp hrest hd _ ih =>
    obtain ⟨hfrugal, hlimit, hpending, hbody⟩ := ih (hr.weight_decode_le hp hd)
    refine ⟨hfrugal, hlimit, ?_, hbody⟩
    rw [hrest, List.length_append]
    simp only at hpending
    omega

theorem Adds.le (h : r.Adds r') (hr : r.Frugal) :
    r'.request.env.weight ≤ r.limit ∧ r'.pending.length ≤ r.pending.length ∧
      r'.request.body = r.request.body := by
  obtain ⟨hp, hrest, -, hrow⟩ := h
  simp only [Frugal, hp] at hr
  obtain ⟨hsize, henv⟩ := hr
  have hweight := HeaderBlock.weight_addFields_split_le r.request.env hrow
  rw [henv, Environment.weight_empty, Nat.zero_add, ← henv] at hweight
  refine ⟨hweight.trans hsize, ?_, rfl⟩
  rw [hrest, List.length_append]
  exact Nat.le_add_left _ _

/-- Until it has spoken, a reader has nothing that did not come in, and no more headers
than the limit allows. -/
theorem During.le (h : r.During data r') (hr : r.Frugal) (hl : (r.push data).Leaves said r₁)
    (hf : r.feed data = (said, r₁)) :
    r'.pending.length ≤ (r.push data).pending.length ∧ r'.request.env.weight ≤ r.limit ∧
      (r'.request.body = r.request.body ∨ r' = r₁) := by
  rcases h with ⟨passed, hpass, rfl | hadds⟩ | rfl
  · obtain ⟨hfrugal, hlimit, hpending, hbody⟩ := hpass.frugal hr
    exact ⟨hpending, hfrugal.weight_le.trans_eq hlimit, .inl hbody⟩
  · obtain ⟨hfrugal, hlimit, hpending, hbody⟩ := hpass.frugal hr
    obtain ⟨hweight, hpending', hbody'⟩ := hadds.le hfrugal
    exact ⟨hpending'.trans hpending, hweight.trans_eq hlimit, .inl (hbody'.trans hbody)⟩
  · rw [hf]
    exact ⟨hl.pending, hl.weight, .inr rfl⟩

end Reader

namespace Connection

variable {l l' : Loop} {events past : List Event} {next : Stage ⊕ Loop} {data : Bytes}
  {said : Except Reader.Fault Reader.Progress} {r : Reader} {chunks : List Bytes}

theorem Loop.Turns.fed (h : Turns s l events next) (hm : .fed data said r ∈ events) :
    l.reader.feed data = (said, r) ∧
      (l.said = .headersDone ∧ data = [] ∨ l.said = .incomplete ∧ data ∈ l.unread) := by
  cases h with
  | accepted => cases hm
  | closed => cases hm
  | refused => simp at hm
  | passed _ hf =>
    rcases feed_cases hf with ⟨_, _, hr, rfl, _⟩ | ⟨_, _, hr, rfl, _⟩ <;>
      simp only [List.mem_cons, reduceCtorEq, false_or, List.not_mem_nil, or_false] at hm <;>
      cases hm <;> exact ⟨hr, .inl ⟨rfl, rfl⟩⟩
  | read _ hf =>
    rcases feed_cases hf with ⟨_, _, hr, rfl, _⟩ | ⟨_, _, hr, rfl, _⟩ <;>
      simp only [List.mem_cons, reduceCtorEq, false_or, List.not_mem_nil, or_false] at hm <;>
      cases hm <;> exact ⟨hr, .inr ⟨rfl, List.mem_cons_self⟩⟩

theorem Loop.Turns.goes (h : Turns s l events (.inr l')) :
    (∃ data, .fed data (.ok l'.said) l'.reader ∈ events) ∧ l'.unread <:+ l.unread := by
  generalize hn : Sum.inr l' = next at h
  cases h with
  | accepted => cases hn
  | closed => cases hn
  | refused => cases hn
  | passed _ hf =>
    subst hn
    rcases feed_cases hf with ⟨_, _, _, _, hn⟩ | ⟨_, _, _, rfl, hn⟩ <;> cases hn
    exact ⟨⟨[], by simp⟩, List.suffix_refl _⟩
  | @read _ _ _ _ chunk _ hf =>
    subst hn
    rcases feed_cases hf with ⟨_, _, _, _, hn⟩ | ⟨_, _, _, rfl, hn⟩ <;> cases hn
    exact ⟨⟨chunk, by simp⟩, List.suffix_cons _ _⟩

/-- The loops between two turns that the reading of the pieces comes to. -/
inductive Loop.Reached (s : Settings) (chunks : List Bytes) : Loop → Prop
  | start : Reached s chunks (.start s chunks)
  | turn {l l' : Loop} {events : List Event} : Reached s chunks l →
      l.turn s = (events, .inr l') → Reached s chunks l'

def Loop.Holds (s : Settings) (l : Loop) (r : Reader) : Prop :=
  r = l.reader ∨ ∃ events next data said left, l.turn s = (events, next) ∧
    .fed data said left ∈ events ∧ l.reader.During data r

/-! ## The body -/

theorem Loop.Reached.exists_past (h : l.Reached s chunks) :
    ∃ past, InPlace s [] past ∧ l.Follows s past := by
  induction h with
  | start => exact ⟨[], trivial, Loop.follows_start s chunks⟩
  | turn _ ht ih =>
    obtain ⟨past, hplace, hl⟩ := ih
    obtain ⟨hevents, hnext⟩ := hl.turn (Loop.turn_cases ht)
    exact ⟨_, inPlace_append.mpr ⟨hplace, hevents⟩, hnext _ rfl⟩

theorem body_le_of_inPlace (h : InPlace s past events) (hm : .fed data said r ∈ events) :
    r.request.body.length ≤ s.maxBodySize := by
  obtain ⟨before, later, rfl⟩ := List.append_of_mem hm
  have hfed : Feeding s (past ++ before) data said r := (inPlace_append.mp h).2.1
  by_cases hb : r.request.body = []
  · simp [hb]
  · obtain ⟨size, -, hle, hmax⟩ := hfed.body_fits hb
    exact hle.trans hmax

theorem Loop.Follows.body_le (hp : InPlace s [] past) (h : l.Follows s past) :
    l.reader.request.body.length ≤ s.maxBodySize := by
  cases h with
  | head _ hb => simp [hb]
  | gate _ _ hb => simp [hb]
  | body _ _ hfits =>
    obtain ⟨size, -, hle, hmax⟩ := hfits
    exact hle.trans hmax
  | done hpast =>
    subst hpast
    exact body_le_of_inPlace hp (List.mem_append_right _ List.mem_cons_self)

theorem Loop.Follows.body_le_size (h : l.Follows s past) (hsaid : l.said ≠ .done)
    (hp : l.reader.phase = .body) : ∀ size, l.reader.request.contentLength? = some size →
      l.reader.request.body.length ≤ size := by
  intro size hc
  cases h with
  | head hin => exact absurd hp hin.1
  | gate _ _ hb => simp [hb]
  | body _ _ hfits =>
    obtain ⟨size', hc', hle, -⟩ := hfits
    obtain rfl : size = size' := Option.some.inj (hc.symm.trans hc')
    exact hle
  | done => exact absurd rfl hsaid

/-! ## The bytes that are kept -/

structure Loop.Within (s : Settings) (l : Loop) : Prop where
  limit : l.reader.limit = s.maxHeaderSize
  frugal : l.reader.Frugal
  pending : l.reader.pending.length ≤
    max Reader.maxDigits (s.maxHeaderSize - 1) + s.bufferSize
  room : l.said = .incomplete → l.reader.pending.length ≤ l.reader.room
  unread : ∀ chunk ∈ l.unread, chunk.length ≤ s.bufferSize

theorem Loop.within_start (h : ∀ chunk ∈ chunks, chunk.length ≤ s.bufferSize) :
    (start s chunks).Within s where
  limit := rfl
  frugal := rfl
  pending := Nat.zero_le _
  room _ := Nat.zero_le _
  unread := h

theorem Loop.Within.room_le (h : l.Within s) (hsaid : l.said = .incomplete) :
    l.reader.pending.length ≤ max Reader.maxDigits (s.maxHeaderSize - 1) :=
  (h.room hsaid).trans (h.limit ▸ h.frugal.room_le)

theorem Loop.Within.fed_le (h : l.Within s) (ht : l.Turns s events next)
    (hm : .fed data said r ∈ events) : l.reader.pending.length + data.length ≤
      max Reader.maxDigits (s.maxHeaderSize - 1) + s.bufferSize := by
  rcases (ht.fed hm).2 with ⟨-, rfl⟩ | ⟨hsaid, hunread⟩
  · exact h.pending
  · exact Nat.add_le_add (h.room_le hsaid) (h.unread _ hunread)

theorem Loop.Within.fed_leaves (h : l.Within s) (hpast : l.Follows s past)
    (ht : l.Turns s events next) (hm : .fed data said r ∈ events) :
    (l.reader.push data).Leaves said r := by
  obtain ⟨hfeed, hsaid⟩ := ht.fed hm
  have hnot : l.said ≠ .done := by
    intro hdone
    rcases hsaid with ⟨hs, -⟩ | ⟨hs, -⟩ <;> rw [hdone] at hs <;> cases hs
  exact Reader.feed_leaves h.frugal (hpast.body_le_size hnot) hfeed

theorem Loop.Within.turn (h : l.Within s) (hpast : l.Follows s past)
    (ht : l.Turns s events (.inr l')) : l'.Within s := by
  obtain ⟨⟨data, hm⟩, hunread⟩ := ht.goes
  have hleaves := h.fed_leaves hpast ht hm
  constructor
  case limit => exact hleaves.limit.trans h.limit
  case frugal => exact hleaves.frugal _ rfl
  case pending =>
    have hfed := h.fed_le ht hm
    have hpending := hleaves.pending
    rw [Reader.pending_push, List.length_append] at hpending
    exact hpending.trans hfed
  case room =>
    intro hs
    exact hleaves.room (congrArg _ hs)
  case unread =>
    intro chunk hchunk
    exact h.unread chunk (hunread.subset hchunk)

theorem Loop.Reached.within (hc : ∀ chunk ∈ chunks, chunk.length ≤ s.bufferSize)
    (h : l.Reached s chunks) : l.Within s := by
  induction h with
  | start => exact Loop.within_start hc
  | turn hl ht ih =>
    obtain ⟨past, -, hpast⟩ := hl.exists_past
    exact ih.turn hpast (Loop.turn_cases ht)

theorem Loop.Within.holds_le (h : l.Within s) (hplace : InPlace s [] past)
    (hpast : l.Follows s past) (hr : l.Holds s r) :
    r.pending.length ≤ max Reader.maxDigits (s.maxHeaderSize - 1) + s.bufferSize ∧
      r.request.env.weight ≤ s.maxHeaderSize ∧ r.request.body.length ≤ s.maxBodySize := by
  rcases hr with rfl | ⟨events, next, data, said, left, ht, hm, hduring⟩
  · exact ⟨h.pending, h.limit ▸ h.frugal.weight_le, hpast.body_le hplace⟩
  · have hturns := Loop.turn_cases ht
    have hfed := h.fed_le hturns hm
    rw [← List.length_append, ← Reader.pending_push] at hfed
    obtain ⟨hpending, hweight, hbody⟩ :=
      hduring.le h.frugal (h.fed_leaves hpast hturns hm) (hturns.fed hm).1
    refine ⟨hpending.trans hfed, hweight.trans_eq h.limit, ?_⟩
    rcases hbody with hsame | rfl
    · rw [hsame]
      exact hpast.body_le hplace
    · exact body_le_of_inPlace (hpast.turn hturns).1 hm

/-- Whenever the loop is about to read, its reader keeps at most ten bytes or all of a block
but one; none if blocks are to be empty and the length is known, and none in the body. At any
time the bytes that have just come in are all that it may have besides, and neither the
headers nor the body are more than the settings allow. -/
theorem memory_bounded (h : ∀ chunk ∈ chunks, chunk.length ≤ s.bufferSize)
    (hl : l.Reached s chunks) :
    (l.said = .incomplete →
      l.reader.pending.length ≤ max 10 (s.maxHeaderSize - 1) ∧
      (s.maxHeaderSize = 0 → l.reader.phase ≠ .length → l.reader.pending = []) ∧
      (l.reader.phase = .body → l.reader.pending = [])) ∧
    ∀ r, l.Holds s r →
      r.pending.length ≤ max 10 (s.maxHeaderSize - 1) + s.bufferSize ∧
      r.request.env.weight ≤ s.maxHeaderSize ∧ r.request.body.length ≤ s.maxBodySize := by
  have hwithin := hl.within h
  obtain ⟨past, hplace, hpast⟩ := hl.exists_past
  constructor
  · intro hsaid
    have hroom := hwithin.room hsaid
    refine ⟨hwithin.room_le hsaid, ?_, ?_⟩
    · intro hzero hphase
      rw [hwithin.frugal.room_eq_zero (hwithin.limit.trans hzero) hphase] at hroom
      exact List.eq_nil_of_length_eq_zero (Nat.le_zero.mp hroom)
    · intro hbody
      simp only [Reader.room, hbody] at hroom
      exact List.eq_nil_of_length_eq_zero (Nat.le_zero.mp hroom)
  · intro r hr
    exact hwithin.holds_le hplace hpast hr

theorem memory_bounded_endless_digits :
    let s : Settings := { maxHeaderSize := 8, bufferSize := 10 }
    let digits : Bytes := List.replicate 10 0x30
    let l : Loop := ⟨{ limit := 8, pending := digits }, .incomplete, [digits]⟩
    (∀ chunk ∈ [digits, digits], chunk.length ≤ s.bufferSize) ∧ l.Reached s [digits, digits] ∧
      l.reader.pending.length = 10 ∧ l.reader.pending.length ≤ max 10 (s.maxHeaderSize - 1) ∧
      ∃ r, l.Holds s r ∧ r.pending.length = 20 ∧
        r.pending.length ≤ max 10 (s.maxHeaderSize - 1) + s.bufferSize := by
  intro s digits l
  have hsize : ∀ chunk ∈ [digits, digits], chunk.length ≤ s.bufferSize := by decide
  have hreached : l.Reached s [digits, digits] := .turn .start rfl
  have hholds : l.Holds s (l.reader.push digits) :=
    .inr ⟨_, _, digits, .error .lengthTooLong, l.reader.push digits, rfl, .tail _ (.head _),
      .inl ⟨_, .now _, .inl rfl⟩⟩
  obtain ⟨hread, hany⟩ := memory_bounded hsize hreached
  exact ⟨hsize, hreached, rfl, (hread rfl).1, _, hholds, rfl, (hany _ hholds).1⟩

end Connection

end ScgiStub
