import Mathlib.Data.Int.Order.Basic
import Mathlib.Data.List.Chain
import ScgiStub.Proofs.Loop
import ScgiStub.Proofs.StatusLine
import ScgiStub.Traffic

/-! # What one client receives

A client's first receipt on a connection is the reply to the bytes that it sent before, however
it sent them, unless some came so late that the server had given it up, and later ones are empty.
-/

namespace ScgiStub

variable {s : Settings} {now : Moment}

instance : LinearOrder Moment :=
  LinearOrder.lift' Moment.nanoseconds fun _ _ => Moment.ext

namespace Moment

variable {t t' : Moment}

theorem le_iff : t ≤ t' ↔ t.nanoseconds ≤ t'.nanoseconds := Iff.rfl

theorem lt_iff : t < t' ↔ t.nanoseconds < t'.nanoseconds := Iff.rfl

@[simp] theorem nanoseconds_plus (t : Moment) (d : Duration) :
    (t.plus d).nanoseconds = t.nanoseconds + d.nanoseconds := rfl

theorem plus_le_plus (h : t ≤ t') (d : Duration) : t.plus d ≤ t'.plus d := by
  simp only [le_iff, nanoseconds_plus] at *
  omega

theorem le_later_left (t t' : Moment) : t ≤ t.later t' := by
  unfold later
  split
  · assumption
  · exact le_refl t

theorem le_later_right (t t' : Moment) : t' ≤ t.later t' := by
  unfold later
  split
  · exact le_refl t'
  · next h => exact (not_le.mp h).le

theorem later_eq (t t' : Moment) : t.later t' = t ∨ t.later t' = t' := by
  unfold later
  split
  · exact .inr rfl
  · exact .inl rfl

end Moment

theorem Canned.sleepTime?_isSome_of_le {t t' : Moment} {unit : Duration} {units : Nat}
    (hle : t ≤ t') (h : (sleepTime? t' unit units).isSome) :
    (sleepTime? t unit units).isSome := by
  obtain ⟨total, htotal⟩ := Option.isSome_iff_exists.mp h
  obtain ⟨htimes, hfits⟩ := Option.filter_eq_some_iff.mp htotal
  have hfits' := of_decide_eq_true hfits
  rw [Moment.le_iff] at hle
  refine Option.isSome_iff_exists.mpr ⟨total, Option.filter_eq_some_iff.mpr ⟨htimes, ?_⟩⟩
  exact decide_eq_true (by omega)

theorem Settings.SleepsAlike.between {t last : Moment} (h : s.SleepsAlike now last) (ht : now ≤ t)
    (ht' : t ≤ last) : s.SleepsAlike now t := fun path? units hpath => by
  rw [Bool.eq_iff_iff]
  refine ⟨fun hnow => ?_, Canned.sleepTime?_isSome_of_le ht⟩
  rw [h path? units hpath] at hnow
  exact Canned.sleepTime?_isSome_of_le ht' hnow

theorem Canned.units_le_of_ofPath {path? : Option String} {units : Nat}
    (h : ofPath path? = sleep units) : units ≤ 15 := by
  rcases ofPath_cases path? with hother | ⟨path, -, hmem⟩
  · rw [hother] at h
    cases h
  · rw [h] at hmem
    simp only [routes, List.mem_cons, Prod.mk.injEq, sleep.injEq, reduceCtorEq, and_false, false_or,
      List.not_mem_nil, or_false] at hmem
    omega

theorem Canned.sleepTime?_eq_times? {unit : Duration} {units : Nat}
    (h : now.nanoseconds + (unit.nanoseconds * units : Nat) < clockBound * Duration.perSecond) :
    sleepTime? now unit units = unit.times? units := by
  rw [sleepTime?, Duration.times?]
  split
  · exact Option.filter_some_pos (decide_eq_true h)
  · rfl

/-- Far from the end of the clock it does not matter when a sleep begins. -/
theorem Settings.sleepsAlike_of_lt {last : Moment} (hle : now ≤ last)
    (hlt : last.nanoseconds + (s.sleepUnit.nanoseconds * 15 : Nat) <
      Canned.clockBound * Duration.perSecond) :
    s.SleepsAlike now last := fun path? units hpath => by
  have hunits := Nat.mul_le_mul_left s.sleepUnit.nanoseconds (Canned.units_le_of_ofPath hpath)
  rw [Moment.le_iff] at hle
  rw [Canned.sleepTime?_eq_times? (by omega), Canned.sleepTime?_eq_times? (by omega)]

namespace Connection

theorem cut_nil (size : Nat) : cut size [] = [] := by
  cases size <;> simp [cut]

namespace Stage

/-- Bytes that come in later are read as if they had come with those before. -/
theorem foldl_cut (size : Nat) (a b : Bytes) :
    (cut size b).foldl (step s) (run s (cut size a)) = run s (cut size (a ++ b)) := by
  rcases Nat.eq_zero_or_pos size with rfl | hsize
  · simp [cut]
  · rw [run_eq_step, run_eq_step, foldl_step, flatten_cut hsize, flatten_cut hsize,
      flatten_cut hsize]

end Stage

theorem output_congr {now' : Moment} (h : s.SleepsAlike now now') (sent : Bytes) :
    output s now sent = output s now' sent := by
  rw [output_eq_written, output_eq_written, Stage.written_congr h]

end Connection

def Act.bytes : Act → Bytes
  | .send bytes => bytes
  | _ => []

namespace Traffic.State

variable {state : State} {name other : String} {c : Client}

@[simp] theorem set_self : state.set name c name = c := if_pos rfl

theorem set_of_ne (h : other ≠ name) : state.set name c other = state other := if_neg h

end Traffic.State

abbrev Conduct := List Deed

def Deed.own (name : String) (deeds : List Deed) : Conduct :=
  deeds.filter (·.client = name)

namespace Conduct

variable {h h' : Conduct} {d d' : Deed} {origin : Moment} {x : Bytes}

/-- What was done since the last connection was made, and that first. -/
def session (h : Conduct) : Conduct :=
  h.foldl (fun session d => if d.act = .connect then [d] else session ++ [d]) []

/-- The client has read to the end of its connection. -/
def Served (h : Conduct) : Prop :=
  ∃ d ∈ h.session, d.act = .receive

/-- What the client sends may still reach the server. -/
def Open (h : Conduct) : Prop :=
  ∀ d ∈ h.session, d.act ≠ .finish ∧ d.act ≠ .receive

/-- What a server hears of a client: that it connects, and then bytes. -/
def signals (h : Conduct) : Conduct :=
  (h.session.takeWhile fun d => d.act ≠ .finish ∧ d.act ≠ .receive).filter
    fun d => d.act = .connect ∨ d.act.bytes ≠ []

def bytes (h : Conduct) : Bytes :=
  h.flatMap (·.act.bytes)

def sent (h : Conduct) : Bytes :=
  h.signals.bytes

/-- The server has to wait for more than these bytes. -/
def Pending (s : Settings) (bytes : Bytes) : Prop :=
  ¬ (Connection.Stage.run s (Connection.cut s.bufferSize bytes)).Decided

/-- Nothing that the server waits for is late: it comes before the server gives up. -/
def Prompt (s : Settings) (signals : Conduct) : Prop :=
  ∀ (before : Conduct) d d' later, signals = before ++ d :: d' :: later →
    Pending s (bytes (before ++ [d])) → d'.time < d.time.plus s.readTimeout

/-- What may reach the server: all, or what comes before a signal that it waits for and that
is late. -/
inductive Reaches (s : Settings) (signals : Conduct) : Bytes → Prop
  | all : Reaches s signals signals.bytes
  | late {before : Conduct} {d d' later} : signals = before ++ d :: d' :: later →
      Pending s (bytes (before ++ [d])) → d.time.plus s.readTimeout ≤ d'.time →
      Reaches s signals (bytes (before ++ [d]))

/-- What a client may receive when it has done all this before: the reply, at some time since
the start, to what has reached the server, but only once. -/
inductive Brings (s : Settings) (origin : Moment) (h : Conduct) (d : Deed) : Prop
  | nothing : d.act ≠ .receive → d.received = none → Brings s origin h d
  | reply {bytes time} : d.act = .receive → ¬ h.Served → Reaches s h.signals bytes → origin ≤ time →
      time ≤ d.time → d.received = some (Connection.output s time bytes) → Brings s origin h d
  | again : d.act = .receive → h.Served → d.received = some [] → Brings s origin h d

inductive Explained (s : Settings) (origin : Moment) : Conduct → Prop
  | nil : Explained s origin []
  | concat {h : Conduct} {d : Deed} :
      Explained s origin h → Brings s origin h d → Explained s origin (h ++ [d])

/-- Whenever the client receives, all that it has sent before was in time. -/
def Punctual (s : Settings) (h : Conduct) : Prop :=
  ∀ (before : Conduct) d later, h = before ++ d :: later → d.act = .receive →
    Prompt s before.signals

theorem bytes_cons : bytes (d :: h) = d.act.bytes ++ h.bytes := List.flatMap_cons

theorem bytes_concat : bytes (h ++ [d]) = h.bytes ++ d.act.bytes := by
  simp [bytes]

/-! ## One more deed -/

theorem session_concat : session (h ++ [d]) =
    if d.act = .connect then [d] else h.session ++ [d] := by
  rw [session, List.foldl_concat]
  rfl

theorem session_of_connect (hd : d.act = .connect) : session (h ++ [d]) = [d] := by
  rw [session_concat, if_pos hd]

theorem session_of_ne (hd : d.act ≠ .connect) : session (h ++ [d]) = h.session ++ [d] := by
  rw [session_concat, if_neg hd]

theorem signals_of_connect (hd : d.act = .connect) : signals (h ++ [d]) = [d] := by
  simp [signals, session_of_connect hd, hd]

theorem signals_of_open (ho : h.Open) (hd : d.act ≠ .connect) :
    signals (h ++ [d]) = if d.act.bytes = [] then h.signals else h.signals ++ [d] := by
  have hall : ∀ d ∈ h.session, decide (d.act ≠ .finish ∧ d.act ≠ .receive) = true := fun d hm =>
    decide_eq_true (ho d hm)
  rw [signals, session_of_ne hd, List.takeWhile_append_of_pos hall, List.filter_append, signals,
    List.takeWhile_eq_self_iff.mpr hall]
  cases hact : d.act with
  | connect => exact absurd hact hd
  | send bytes => by_cases hb : bytes = [] <;> simp [hact, hb, Act.bytes]
  | finish | receive => simp [hact, Act.bytes]

theorem signals_of_not_open (ho : ¬ h.Open) (hd : d.act ≠ .connect) :
    signals (h ++ [d]) = h.signals := by
  have hstops : (h.session.takeWhile fun d => d.act ≠ .finish ∧ d.act ≠ .receive).length ≠
      h.session.length := fun hlen => ho fun d hm => by
    have hself := (List.takeWhile_prefix _).eq_of_length hlen
    exact of_decide_eq_true (List.takeWhile_eq_self_iff.mp hself d hm)
  rw [signals, session_of_ne hd, List.takeWhile_append, if_neg hstops, signals]

theorem signals_of_silent (hd : d.act ≠ .connect) (hs : h.Open → d.act.bytes = []) :
    signals (h ++ [d]) = h.signals := by
  by_cases ho : h.Open
  · rw [signals_of_open ho hd, if_pos (hs ho)]
  · exact signals_of_not_open ho hd

theorem signals_concat (hd : d.act ≠ .connect) :
    signals (h ++ [d]) = h.signals ∧ sent (h ++ [d]) = h.sent ∨
      h.Open ∧ signals (h ++ [d]) = h.signals ++ [d] ∧ sent (h ++ [d]) = h.sent ++ d.act.bytes := by
  by_cases hs : h.Open ∧ d.act.bytes ≠ []
  · have hsignals := signals_of_open hs.1 hd
    rw [if_neg hs.2] at hsignals
    exact .inr ⟨hs.1, hsignals, by rw [sent, hsignals, bytes_concat, sent]⟩
  · have hsignals := signals_of_silent hd fun ho => not_not.mp fun hb => hs ⟨ho, hb⟩
    exact .inl ⟨hsignals, by rw [sent, hsignals, sent]⟩

theorem open_of_connect (hd : d.act = .connect) : Open (h ++ [d]) := by
  simp [Open, session_of_connect hd, hd]

theorem open_concat_iff (hd : d.act ≠ .connect) :
    Open (h ++ [d]) ↔ h.Open ∧ d.act ≠ .finish ∧ d.act ≠ .receive := by
  rw [Open, Open, session_of_ne hd, List.forall_mem_append, List.forall_mem_singleton]

theorem not_served_of_connect (hd : d.act = .connect) : ¬ Served (h ++ [d]) := by
  simp [Served, session_of_connect hd, hd]

theorem served_concat_iff (hd : d.act ≠ .connect) :
    Served (h ++ [d]) ↔ h.Served ∨ d.act = .receive := by
  simp [Served, session_of_ne hd, or_and_right, exists_or]

theorem session_suffix (h : Conduct) : h.session <:+ h := by
  induction h using List.reverseRecOn with
  | nil => exact List.suffix_rfl
  | append_singleton h d ih =>
    rw [session_concat]
    split
    · exact List.suffix_append h [d]
    · obtain ⟨before, hbefore⟩ := ih
      exact ⟨before, by rw [← List.append_assoc, hbefore]⟩

theorem mem_of_mem_signals (hm : d ∈ h.signals) : d ∈ h :=
  h.session_suffix.subset ((List.takeWhile_prefix _).subset (List.mem_of_mem_filter hm))

/-! ## What was in time -/

theorem Reaches.eq_sent (hr : Reaches s h.signals x) (hp : Prompt s h.signals) : x = h.sent := by
  cases hr with
  | all => rfl
  | late heq hpending hlate => exact absurd (hp _ _ _ _ heq hpending) (not_lt.mpr hlate)

theorem Punctual.of_within {t : Moment}
    (hwithin : ∀ d ∈ h, t ≤ d.time ∧ d.time < t.plus s.readTimeout) : Punctual s h := by
  rintro before d later rfl - signals' e e' later' heq -
  have hmem (x : Deed) (hx : x ∈ signals' ++ e :: e' :: later') : x ∈ before ++ d :: later :=
    List.mem_append_left _ (mem_of_mem_signals (heq ▸ hx))
  have he := (hwithin e (hmem e (by simp))).1
  have he' := (hwithin e' (hmem e' (by simp))).2
  exact he'.trans_le (Moment.plus_le_plus he s.readTimeout)

theorem Punctual.of_concat (hp : Punctual s (h ++ [d])) : Punctual s h :=
  fun before d' later heq => hp before d' (later ++ [d]) (by simp [heq])

theorem Explained.brings {before later : Conduct} (he : Explained s origin h)
    (heq : h = before ++ d :: later) : Brings s origin before d := by
  induction he generalizing later with
  | nil => simp at heq
  | concat he hb ih =>
    rcases List.eq_nil_or_concat later with rfl | ⟨later, last, rfl⟩
    · obtain ⟨rfl, hd⟩ := List.append_inj' heq rfl
      obtain rfl := List.singleton_inj.mp hd
      exact hb
    · rw [List.concat_eq_append, ← List.cons_append, ← List.append_assoc] at heq
      exact ih (List.append_inj' heq rfl).1

/-! ## Histories of the same acts -/

theorem map_act_session (h : Conduct) : h.session.map Deed.act =
    (h.map Deed.act).foldl
      (fun acts act => if act = .connect then [act] else acts ++ [act]) [] := by
  induction h using List.reverseRecOn with
  | nil => rfl
  | append_singleton h d ih =>
    rw [session_concat, List.map_append, List.map_singleton, List.foldl_concat, ← ih]
    split
    · rfl
    · rw [List.map_append, List.map_singleton]

theorem map_act_signals (h : Conduct) : h.signals.map Deed.act =
    ((h.session.map Deed.act).takeWhile fun act => act ≠ .finish ∧ act ≠ .receive).filter
      fun act => act = .connect ∨ act.bytes ≠ [] := by
  rw [signals, List.takeWhile_map, List.filter_map]
  rfl

theorem served_iff : h.Served ↔ .receive ∈ h.session.map Deed.act := by
  simp [Served]

theorem bytes_filter (h : Conduct) :
    bytes (h.filter fun d => d.act = .connect ∨ d.act.bytes ≠ []) = h.bytes := by
  induction h with
  | nil => rfl
  | cons d h ih =>
    rw [bytes_cons, ← ih, List.filter_cons]
    split
    · exact bytes_cons
    · next hd =>
      have hb : d.act.bytes = [] := by
        by_contra hb
        simp [hb] at hd
      rw [hb]
      rfl

theorem sent_eq_flatMap (h : Conduct) : h.sent = ((h.session.map Deed.act).takeWhile
    fun act => act ≠ .finish ∧ act ≠ .receive).flatMap Act.bytes := by
  rw [sent, signals, bytes_filter, bytes, List.takeWhile_map, List.flatMap_map]
  rfl

theorem Brings.received_eq {origin' : Moment} (hacts : h.map Deed.act = h'.map Deed.act)
    (hact : d.act = d'.act) (hb : Brings s origin h d) (hb' : Brings s origin' h' d')
    (hp : d.act = .receive → Prompt s h.signals) (hp' : d'.act = .receive → Prompt s h'.signals)
    (halike : ∀ t t', origin ≤ t → t ≤ d.time → origin' ≤ t' → t' ≤ d'.time → s.SleepsAlike t t') :
    d.received = d'.received := by
  have hsession : h.session.map Deed.act = h'.session.map Deed.act := by
    rw [map_act_session, map_act_session, hacts]
  have hserved : h.Served ↔ h'.Served := by rw [served_iff, served_iff, hsession]
  have hsent : h.sent = h'.sent := by rw [sent_eq_flatMap, sent_eq_flatMap, hsession]
  cases hb with
  | nothing hd hnone =>
    cases hb' with
    | nothing _ hnone' => rw [hnone, hnone']
    | reply hd' | again hd' => exact absurd (hact.trans hd') hd
  | reply hd hnot hr hstart htime hreply =>
    cases hb' with
    | nothing hd' => exact absurd (hact.symm.trans hd) hd'
    | again _ hs' => exact absurd (hserved.mpr hs') hnot
    | reply hd' _ hr' horigin' htime' hreply' =>
      rw [hreply, hreply', hr.eq_sent (hp hd), hr'.eq_sent (hp' hd'), hsent,
        Connection.output_congr (halike _ _ hstart htime horigin' htime')]
  | again hd hs hempty =>
    cases hb' with
    | nothing hd' => exact absurd (hact.symm.trans hd) hd'
    | reply _ hnot' => exact absurd (hserved.mp hs) hnot'
    | again _ _ hempty' => rw [hempty, hempty']

/-- Clients that do the same, and all of it in time, receive the same. -/
theorem Explained.received_eq {origin' last : Moment} (he : Explained s origin h)
    (he' : Explained s origin' h') (hacts : h.map Deed.act = h'.map Deed.act)
    (hp : Punctual s h) (hp' : Punctual s h') (hlast : ∀ d ∈ h, d.time ≤ last)
    (hlast' : ∀ d ∈ h', d.time ≤ last)
    (halike : ∀ t t', origin ≤ t → t ≤ last → origin' ≤ t' → t' ≤ last → s.SleepsAlike t t') :
    h.map Deed.received = h'.map Deed.received := by
  induction he generalizing h' with
  | nil =>
    obtain rfl : h' = [] := by simpa using hacts.symm
    rfl
  | @concat h d _ hb ih =>
    cases he' with
    | nil => simp at hacts
    | @concat h' d' he' hb' =>
      rw [List.map_append, List.map_append] at hacts ⊢
      obtain ⟨hacts, hact⟩ := List.append_inj' hacts rfl
      have hd : d ∈ h ++ [d] := List.mem_append_right _ (List.mem_singleton_self d)
      have hd' : d' ∈ h' ++ [d'] := List.mem_append_right _ (List.mem_singleton_self d')
      have hreceived : d.received = d'.received :=
        hb.received_eq hacts (List.singleton_inj.mp hact) hb' (hp h d [] rfl) (hp' h' d' [] rfl)
          fun t t' ht ht' hu hu' =>
            halike t t' ht (ht'.trans (hlast d hd)) hu (hu'.trans (hlast' d' hd'))
      rw [ih he' hacts hp.of_concat hp'.of_concat (fun d hm => hlast d (List.mem_append_left _ hm))
        fun d hm => hlast' d (List.mem_append_left _ hm), List.map_singleton, List.map_singleton,
        hreceived]

/-! ## Deeds that follow each other at once -/

theorem bytes_eq_of_map_act (hacts : h.map Deed.act = h'.map Deed.act) : h.bytes = h'.bytes := by
  have hmap (h : Conduct) : h.bytes = (h.map Deed.act).flatMap Act.bytes := by
    rw [List.flatMap_map, bytes]
  rw [hmap, hmap, hacts]

theorem time_of_pairwise {R : Deed → Deed → Prop} {before later : Conduct}
    (h : (before ++ d :: d' :: later).Pairwise R) : R d d' :=
  (List.pairwise_cons.mp (List.pairwise_append.mp h).2.1).1 d' List.mem_cons_self

theorem Prompt.of_pairwise (hp : Prompt s h) (hsorted : h.Pairwise fun d d' => d.time ≤ d'.time)
    (hacts : h.map Deed.act = h'.map Deed.act) (hsame : h'.Pairwise fun d d' => d'.time = d.time) :
    Prompt s h' := by
  rintro before' d' e' later' rfl hpending
  rw [List.map_append, List.map_eq_append_iff] at hacts
  obtain ⟨before, rest, rfl, hbefore, hrest⟩ := hacts
  obtain ⟨d, rest, rfl, hd, hrest⟩ := List.map_eq_cons_iff.mp hrest
  obtain ⟨e, later, rfl, -, -⟩ := List.map_eq_cons_iff.mp hrest
  have hbytes : bytes (before ++ [d]) = bytes (before' ++ [d']) :=
    bytes_eq_of_map_act (by simp [hbefore, hd])
  have hlt := hp before d e later rfl (hbytes ▸ hpending)
  have hle := time_of_pairwise hsorted
  rw [time_of_pairwise hsame]
  rw [Moment.lt_iff, Moment.nanoseconds_plus] at hlt ⊢
  rw [Moment.le_iff] at hle
  omega

/-- Who does the same, and whose receipts alone take time, is in time as well. -/
theorem Punctual.of_isChain (hp : h.Punctual s)
    (hsorted : h.Pairwise fun d d' => d.time ≤ d'.time) (hacts : h.map Deed.act = h'.map Deed.act)
    (hsame : h'.IsChain fun d d' => d'.act ≠ .receive → d'.time = d.time) : h'.Punctual s := by
  rintro before' d' later' rfl hd'
  rw [List.map_append, List.map_cons, List.map_eq_append_iff] at hacts
  obtain ⟨before, rest, rfl, hbefore, hrest⟩ := hacts
  obtain ⟨d, later, rfl, hd, -⟩ := List.map_eq_cons_iff.mp hrest
  refine (hp before d later rfl (hd.trans hd')).of_pairwise (hsorted.sublist ?_) ?_
    (List.Pairwise.filter _ ?_)
  · exact List.filter_sublist.trans ((List.takeWhile_sublist _).trans
      ((session_suffix before).sublist.trans (List.sublist_append_left _ _)))
  · rw [map_act_signals, map_act_signals, map_act_session, map_act_session, hbefore]
  · have hbefore := List.IsChain.prefix hsame (List.prefix_append before' (d' :: later'))
    have hsession := hbefore.suffix (session_suffix before')
    have hchain := List.IsChain.prefix hsession
      (List.takeWhile_prefix fun d => d.act ≠ .finish ∧ d.act ≠ .receive)
    have htimes := hchain.imp_of_mem_imp (S := fun d d' => d'.time = d.time) fun d d' _ hd' heq =>
      heq (of_decide_eq_true (List.mem_takeWhile_imp (p := fun d : Deed =>
        decide (d.act ≠ .finish ∧ d.act ≠ .receive)) hd')).2
    have htrans : IsTrans Deed fun d d' => d'.time = d.time := ⟨fun _ _ _ h h' => h'.trans h⟩
    exact List.isChain_iff_pairwise.mp htimes

end Conduct

end ScgiStub
