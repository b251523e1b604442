import ScgiStub.Proofs.Scheduling

/-! # Connections and the conduct of their clients

Whatever the tasks have done, and whenever, a connection is where it can be after what its own
client has done, and what that client has received is explained by it.
-/

namespace ScgiStub

variable {s : Settings} {origin now clock : Moment}

/-! ## A connection and the history of its client -/

section

variable {l l' : Link} {h : Conduct} {d : Deed} {act : Act} {received : Option Bytes}
  {bytes : Bytes}

open Connection

/-- This will be written, and nothing that is still sent changes it. -/
inductive Conduct.Settled (s : Settings) (origin clock : Moment) (h : Conduct) : Bytes → Prop
  | all {time} : origin ≤ time → time ≤ clock →
      (Stage.run s (cut s.bufferSize h.sent)).Decided ∨ ¬ h.Open ∨ s.bufferSize = 0 →
      Settled s origin clock h (output s time h.sent)
  | late {before d later} : h.signals = before ++ d :: later →
      d.time.plus s.readTimeout ≤ clock →
      (∀ d' ∈ later.head?, d.time.plus s.readTimeout ≤ d'.time) →
      Conduct.Pending s (Conduct.bytes (before ++ [d])) → Settled s origin clock h []

namespace Conduct

theorem Pending.output_eq_nil (h : Pending s bytes) : output s now bytes = [] := by
  rw [output_eq_written]
  cases hstage : Stage.run s (cut s.bufferSize bytes) with
  | waiting => rfl
  | accepted request => exact absurd (hstage ▸ Stage.decided_accepted request) h
  | rejected rejection => exact absurd (hstage ▸ Stage.decided_rejected rejection) h

theorem Settled.reaches (hs : h.Settled s origin clock bytes) (horigin : origin ≤ clock) :
    ∃ x time, Reaches s h.signals x ∧ origin ≤ time ∧ time ≤ clock ∧ bytes = output s time x := by
  cases hs with
  | all hle hle' _ => exact ⟨_, _, .all, hle, hle', rfl⟩
  | @late before d later heq _ hlate hpending =>
    refine ⟨_, clock, ?_, horigin, le_refl clock, hpending.output_eq_nil.symm⟩
    cases later with
    | nil => exact heq ▸ .all
    | cons d' later => exact .late heq hpending (hlate d' rfl)

theorem Settled.mono (hs : h.Settled s origin clock bytes) (hle : clock ≤ now) :
    h.Settled s origin now bytes := by
  cases hs with
  | all horigin htime hend => exact .all horigin (htime.trans hle) hend
  | late heq hclock hlate hnot => exact .late heq (hclock.trans hle) hlate hnot

theorem Settled.concat (hs : h.Settled s origin clock bytes) (hd : d.act ≠ .connect)
    (hle : clock ≤ d.time) : Settled s origin d.time (h ++ [d]) bytes := by
  cases hs with
  | @all time horigin htime hend =>
    have hopen : ¬ h.Open → ¬ Open (h ++ [d]) := fun hno ho => hno ((open_concat_iff hd).mp ho).1
    rcases signals_concat hd with ⟨-, hsent⟩ | ⟨ho, -, hsent⟩
    · rw [← hsent] at hend ⊢
      exact .all horigin (htime.trans hle) (hend.imp_right (.imp_left hopen))
    · have hrun : Stage.run s (cut s.bufferSize (sent (h ++ [d]))) =
          Stage.run s (cut s.bufferSize h.sent) := by
        rcases hend with hdecided | hno | hb
        · rw [hsent, ← Stage.foldl_cut, Stage.foldl_of_decided hdecided]
        · exact absurd ho hno
        · rw [hb, cut, cut]
      have houtput : output s time h.sent = output s time (sent (h ++ [d])) := by
        rw [output_eq_written, output_eq_written, hrun]
      rw [houtput]
      exact .all horigin (htime.trans hle) (by rw [hrun]; exact hend.imp_right (.imp_left hopen))
  | @late before d' later heq hclock hlate hnot =>
    rcases signals_concat hd with ⟨hsignals, -⟩ | ⟨-, hsignals, -⟩
    · exact .late (hsignals.trans heq) (hclock.trans hle) hlate hnot
    · have hsplit : signals (h ++ [d]) = before ++ d' :: (later ++ [d]) := by
        rw [hsignals, heq, List.append_assoc, List.cons_append]
      refine .late hsplit (hclock.trans hle) (fun next hnext => ?_) hnot
      cases later with
      | nil =>
        obtain rfl : d = next := by simpa using hnext
        exact hclock.trans hle
      | cons d'' later => exact hlate next hnext

end Conduct

namespace Link

/-- A connection is where it can be after what its client has done. -/
inductive Follows (s : Settings) (origin clock : Moment) (h : Conduct) : Link → Prop
  | working {stage since transit sending} (got : Bytes) : stage = .run s (cut s.bufferSize got) →
      got ++ transit = h.sent → (sending = true ↔ h.Open) → ¬ h.Served → h.signals ≠ [] →
      (transit = [] → ∀ d ∈ h.signals, d.time ≤ since) →
      Follows s origin clock h ⟨stage, since, transit, sending, .working⟩
  | due {stage since transit sending time bytes} : h.Settled s origin clock bytes → ¬ h.Served →
      Follows s origin clock h ⟨stage, since, transit, sending, .due time bytes⟩
  | written {stage since transit sending bytes} : h.Settled s origin clock bytes → ¬ h.Served →
      Follows s origin clock h ⟨stage, since, transit, sending, .written bytes⟩
  | taken {stage since transit sending} : h.Served →
      Follows s origin clock h ⟨stage, since, transit, sending, .taken⟩

theorem push_of_ne_working (bytes : Bytes) (h : l.outlet ≠ .working) : l.push bytes = l :=
  if_neg fun ho => h ho.2

theorem ofOutcome_feed {r : Reader} {got chunk : Bytes} (hne : chunk ≠ [])
    (hsize : chunk.length ≤ s.bufferSize) (hr : .waiting r = Stage.run s (cut s.bufferSize got)) :
    Stage.ofOutcome s (r.feed chunk) = Stage.run s (cut s.bufferSize (got ++ chunk)) := by
  have hb : 0 < s.bufferSize := Nat.lt_of_lt_of_le (List.length_pos_iff.mpr hne) hsize
  rw [Stage.run_eq_step, flatten_cut hb] at hr ⊢
  rw [← Stage.step_step, ← hr]
  rfl

theorem decided_of_deferred {stage : Stage} {deferred : Deferred}
    (h : stage.deferred? s now = some deferred) : stage.Decided := by
  cases stage with
  | waiting => cases h
  | accepted request => exact Stage.decided_accepted request
  | rejected rejection => exact Stage.decided_rejected rejection

theorem follows_of_connect (hd : d.act = .connect) :
    (fresh s d.time).Follows s origin clock (h ++ [d]) := by
  have hsignals := Conduct.signals_of_connect (h := h) hd
  have hsent : Conduct.sent (h ++ [d]) = [] := by
    rw [Conduct.sent, hsignals, Conduct.bytes, List.flatMap_singleton, hd]
    rfl
  refine .working [] (by rw [cut_nil]; rfl) hsent.symm ?_ (Conduct.not_served_of_connect hd) ?_ ?_
  · exact iff_of_true rfl (Conduct.open_of_connect hd)
  · simp [hsignals]
  · intro _ d' hm
    rw [hsignals] at hm
    rw [List.mem_singleton.mp hm]

theorem Follows.mono (hf : l.Follows s origin clock h) (hle : clock ≤ now) :
    l.Follows s origin now h := by
  cases hf with
  | working got hstage hgot hsending hnot hne hsince =>
    exact .working got hstage hgot hsending hnot hne hsince
  | due hs hnot => exact .due (hs.mono hle) hnot
  | written hs hnot => exact .written (hs.mono hle) hnot
  | taken hserved => exact .taken hserved

theorem Follows.accept (hf : l.Follows s origin clock h) (htimes : ∀ d ∈ h, d.time ≤ now) :
    Follows s origin clock h { l with since := now } := by
  cases hf with
  | working got hstage hgot hsending hnot hne _ =>
    exact .working got hstage hgot hsending hnot hne
      fun _ d hm => htimes d (Conduct.mem_of_mem_signals hm)
  | due hs hnot => exact .due hs hnot
  | written hs hnot => exact .written hs hnot
  | taken hserved => exact .taken hserved

theorem Follows.turn (hf : l.Follows s origin now h) (horigin : origin ≤ now)
    (htimes : ∀ d ∈ h, d.time ≤ now) (ht : l.Turn s now l') : l'.Follows s origin now h := by
  cases ht with
  | read hne hsize =>
    cases hf with
    | working got hstage hgot hsending hnot hsignals _ =>
      exact .working _ (ofOutcome_feed hne hsize hstage) (by rw [← hgot, List.append_assoc])
        hsending hnot hsignals fun _ d hm => htimes d (Conduct.mem_of_mem_signals hm)
  | giveUp hpast =>
    cases hf with
    | working got hstage hgot hsending hnot hsignals hsince =>
      obtain ⟨before, d, heq⟩ := (List.eq_nil_or_concat h.signals).resolve_left hsignals
      rw [List.concat_eq_append] at heq
      have hlast := hsince rfl d (by simp [heq])
      rw [List.append_nil, Conduct.sent, heq] at hgot
      refine .written (.late heq ((Moment.plus_le_plus hlast _).trans hpast) (by simp) ?_) hnot
      rw [Conduct.Pending, ← hgot, ← hstage]
      exact id
  | @leave r since transit sending hend =>
    cases hf with
    | working got hstage hgot hsending hnot hsignals _ =>
      have hpending : Conduct.Pending s h.sent := by
        rcases hend with hb | ⟨rfl, -⟩
        · rw [Conduct.Pending, hb, cut]
          exact id
        · rw [Conduct.Pending, ← hgot, List.append_nil, ← hstage]
          exact id
      have hsettled : h.Settled s origin now (output s now h.sent) := by
        refine .all horigin (le_refl now) (.inr ?_)
        rcases hend with hb | ⟨-, rfl⟩
        · exact .inr hb
        · exact .inl fun ho => Bool.false_ne_true (hsending.mpr ho)
      rw [hpending.output_eq_nil] at hsettled
      exact .written hsettled hnot
  | @answer stage _ _ _ deferred hanswer =>
    cases hf with
    | working got hstage hgot hsending hnot hsignals _ =>
      -- What the client has sent beyond the request is in transit and changes nothing.
      have hdecided := decided_of_deferred hanswer
      have hrun : Stage.run s (cut s.bufferSize h.sent) = stage := by
        rw [← hgot, ← Stage.foldl_cut, ← hstage, Stage.foldl_of_decided hdecided]
      have houtput : output s now h.sent = deferred.reply.wire := by
        rw [output_eq_written, hrun, Stage.written, Stage.reply?, hanswer]
        rfl
      rw [← houtput]
      exact .due (.all horigin (le_refl now) (.inl (by rwa [hrun]))) hnot
  | write =>
    cases hf with
    | due hs hnot => exact .written hs hnot

theorem Follows.send (hf : l.Follows s origin clock h) (hd : d.act = .send bytes)
    (hle : clock ≤ d.time) : (l.push bytes).Follows s origin d.time (h ++ [d]) := by
  have hconnect : d.act ≠ .connect := by simp [hd]
  have hserved : Conduct.Served (h ++ [d]) ↔ h.Served := by
    simp [Conduct.served_concat_iff hconnect, hd]
  have hopen : Conduct.Open (h ++ [d]) ↔ h.Open := by
    simp [Conduct.open_concat_iff hconnect, hd]
  cases hf with
  | @working stage since transit sending got hstage hgot hsending hnot hne hsince =>
    cases sending with
    | false =>
      have hno : ¬ h.Open := fun ho => Bool.false_ne_true (hsending.mpr ho)
      have hsignals := Conduct.signals_of_not_open hno hconnect
      refine .working got hstage (by rw [hgot, Conduct.sent, Conduct.sent, hsignals])
        (hsending.trans hopen.symm) (hserved.not.mpr hnot) (by rwa [hsignals]) ?_
      rwa [hsignals]
    | true =>
      have hpush : push ⟨stage, since, transit, true, .working⟩ bytes =
          ⟨stage, since, transit ++ bytes, true, .working⟩ := if_pos ⟨rfl, rfl⟩
      have hsignals := Conduct.signals_of_open (hsending.mp rfl) hconnect
      have hsent : (h ++ [d] : Conduct).sent = h.sent ++ bytes := by
        rw [Conduct.sent, hsignals, Conduct.sent, hd, Act.bytes]
        split
        · next hb => rw [hb, List.append_nil]
        · rw [Conduct.bytes_concat, hd, Act.bytes]
      rw [hpush]
      refine .working got hstage (by rw [hsent, ← hgot, List.append_assoc])
        (hsending.trans hopen.symm) (hserved.not.mpr hnot) ?_ fun hempty => ?_
      · rw [hsignals]
        split <;> simp [hne]
      · obtain ⟨htransit, hb⟩ := List.append_eq_nil_iff.mp hempty
        rw [hsignals, hd, Act.bytes, if_pos hb]
        exact hsince htransit
  | due hs hnot =>
    rw [push_of_ne_working bytes (by simp)]
    exact .due (hs.concat hconnect hle) (hserved.not.mpr hnot)
  | written hs hnot =>
    rw [push_of_ne_working bytes (by simp)]
    exact .written (hs.concat hconnect hle) (hserved.not.mpr hnot)
  | taken hs =>
    rw [push_of_ne_working bytes (by simp)]
    exact .taken (hserved.mpr hs)

theorem Follows.finish (hf : l.Follows s origin clock h) (hd : d.act = .finish)
    (hle : clock ≤ d.time) : Follows s origin d.time (h ++ [d]) { l with sending := false } := by
  have hconnect : d.act ≠ .connect := by simp [hd]
  have hserved : Conduct.Served (h ++ [d]) ↔ h.Served := by
    simp [Conduct.served_concat_iff hconnect, hd]
  have hno : ¬ Conduct.Open (h ++ [d]) := by
    simp [Conduct.open_concat_iff hconnect, hd]
  cases hf with
  | working got hstage hgot hsending hnot hne hsince =>
    have hsignals := Conduct.signals_of_silent (h := h) hconnect fun _ => by rw [hd]; rfl
    refine .working got hstage (by rw [hgot, Conduct.sent, Conduct.sent, hsignals])
      (iff_of_false Bool.false_ne_true hno) (hserved.not.mpr hnot) (by rwa [hsignals]) ?_
    rwa [hsignals]
  | due hs hnot => exact .due (hs.concat hconnect hle) (hserved.not.mpr hnot)
  | written hs hnot => exact .written (hs.concat hconnect hle) (hserved.not.mpr hnot)
  | taken hs => exact .taken (hserved.mpr hs)

/-- Whatever a client gets on its connection is explained by what it has done. -/
theorem Follows.does (hf : l.Follows s origin clock h) (horigin : origin ≤ clock)
    (hd : l.Does d.act d.received l') (hle : clock ≤ d.time) :
    l'.Follows s origin d.time (h ++ [d]) ∧ Conduct.Brings s origin h d := by
  obtain ⟨client, act, time, received⟩ := d
  cases hd with
  | send => exact ⟨hf.send rfl hle, .nothing nofun rfl⟩
  | finish => exact ⟨hf.finish rfl hle, .nothing nofun rfl⟩
  | receive =>
    have hserved (d : Deed) (hd : d.act = .receive) : Conduct.Served (h ++ [d]) :=
      (Conduct.served_concat_iff (by simp [hd])).mpr (.inr hd)
    cases hf with
    | written hs hnot =>
      obtain ⟨x, t, hreaches, ht, ht', hbytes⟩ := hs.reaches horigin
      exact ⟨.taken (hserved _ rfl), .reply rfl hnot hreaches ht (ht'.trans hle) (by rw [hbytes])⟩
  | again =>
    cases hf with
    | taken hs =>
      exact ⟨.taken ((Conduct.served_concat_iff (by simp)).mpr (.inl hs)), .again rfl hs rfl⟩

end Link

end

/-! ## All connections -/

namespace Service

variable {y y' : Service} {actor : Actor} {acts : List (String × Act)} {name : String}

/-- What has been done is explained, and every connection is where it can be after that. -/
structure Tracks (s : Settings) (origin : Moment) (acts : List (String × Act)) (y : Service) :
    Prop where
  acts : acts = (y.log.map fun d => (d.client, d.act)) ++ y.todo
  clock : origin ≤ y.clock
  times : ∀ d ∈ y.log, d.time ≤ y.clock
  sorted : y.log.Pairwise fun d d' => d.time ≤ d'.time
  explained : ∀ name, (Deed.own name y.log).Explained s origin
  separate : Separate y.holds
  follows : ∀ name i, y.holds name = some i →
    ∃ l, y.links[i]? = some l ∧ l.Follows s origin y.clock (Deed.own name y.log)

theorem own_concat (name : String) (log : List Deed) (d : Deed) : Deed.own name (log ++ [d]) =
    if d.client = name then Deed.own name log ++ [d] else Deed.own name log := by
  by_cases h : d.client = name <;> simp [Deed.own, h]

theorem tracks_start : (start origin acts).Tracks s origin acts where
  acts := rfl
  clock := le_refl origin
  times := nofun
  sorted := .nil
  explained _ := .nil
  separate := nofun
  follows := nofun

theorem Tracks.own_times (h : y.Tracks s origin acts) {d : Deed} (hd : d ∈ Deed.own name y.log) :
    d.time ≤ y.clock :=
  h.times d (List.mem_of_mem_filter hd)

/-- What a task or the server does to one connection changes nothing for the clients. -/
theorem Tracks.set {i : Nat} {l l' : Link} {accepted : Nat} (h : y.Tracks s origin acts)
    (hle : y.clock ≤ now) (hl : y.links[i]? = some l)
    (hf : ∀ h : Conduct, (∀ d ∈ h, d.time ≤ now) → l.Follows s origin now h →
      l'.Follows s origin now h) :
    Tracks s origin acts { y with clock := now, links := y.links.set i l', accepted } where
  acts := h.acts
  clock := h.clock.trans hle
  times d hd := (h.times d hd).trans hle
  sorted := h.sorted
  explained := h.explained
  separate := h.separate
  follows name j hj := by
    obtain ⟨found, hfound, hfollows⟩ := h.follows name j hj
    by_cases hij : i = j
    · subst hij
      obtain rfl : l = found := by simpa [hl] using hfound
      refine ⟨l', by simp [(List.getElem?_eq_some_iff.mp hl).1], ?_⟩
      exact hf _ (fun d hd => (h.own_times hd).trans hle) (hfollows.mono hle)
    · exact ⟨found, by rw [List.getElem?_set_ne hij, hfound], hfollows.mono hle⟩

theorem Tracks.concat {d : Deed} {todo : List (String × Act)} {links : List Link}
    {holds : String → Option Nat} (h : y.Tracks s origin acts)
    (htodo : y.todo = (d.client, d.act) :: todo) (hle : y.clock ≤ d.time)
    (hb : (Deed.own d.client y.log).Brings s origin d)
    (hseparate : Separate holds)
    (hf : ∀ name i, holds name = some i →
      ∃ l, links[i]? = some l ∧ l.Follows s origin d.time (Deed.own name (y.log ++ [d]))) :
    Tracks s origin acts
      { y with clock := d.time, links, holds, todo, log := y.log ++ [d] } where
  acts := by
    rw [h.acts, htodo, List.map_append, List.append_assoc]
    rfl
  clock := h.clock.trans hle
  times d' hd' := by
    rcases List.mem_append.mp hd' with hd' | hd'
    · exact (h.times d' hd').trans hle
    · rw [List.mem_singleton.mp hd']
  sorted := by
    refine List.pairwise_append.mpr ⟨h.sorted, List.pairwise_singleton _ _, ?_⟩
    intro d' hd' d'' hd''
    rw [List.mem_singleton.mp hd'']
    exact (h.times d' hd').trans hle
  explained name := by
    rw [own_concat]
    split
    · next hname => exact hname ▸ .concat (h.explained d.client) hb
    · exact h.explained name
  separate := hseparate
  follows := hf

theorem Tracks.connect {todo : List (String × Act)} (h : y.Tracks s origin acts)
    (htodo : y.todo = (name, .connect) :: todo) (hle : y.clock ≤ now) :
    Tracks s origin acts
      { y with
        clock := now
        links := y.links ++ [.fresh s now]
        holds := fun other => if other = name then some y.links.length else y.holds other
        todo
        log := y.log ++ [{ client := name, act := .connect, time := now, received := none }] } := by
  let d : Deed := { client := name, act := .connect, time := now, received := none }
  refine h.concat (d := d) htodo hle (.nothing nofun rfl) (h.separate.connect h.follows name)
    (forall_holds_append ?_ (fun other l he hf => ?_) h.follows)
  · rw [own_concat, if_pos rfl]
    exact Link.follows_of_connect rfl
  · rw [own_concat, if_neg (Ne.symm he)]
    exact hf.mono hle

theorem Tracks.act {act : Act} {todo : List (String × Act)} {i : Nat} {l l' : Link}
    {received : Option Bytes} (h : y.Tracks s origin acts) (htodo : y.todo = (name, act) :: todo)
    (hholds : y.holds name = some i) (hl : y.links[i]? = some l) (hd : l.Does act received l')
    (hle : y.clock ≤ now) :
    Tracks s origin acts
      { y with
        clock := now
        links := y.links.set i l'
        todo
        log := y.log ++ [{ client := name, act, time := now, received }] } := by
  obtain ⟨found, hfound, hfollows⟩ := h.follows name i hholds
  obtain rfl : l = found := by simpa [hl] using hfound
  let d : Deed := { client := name, act, time := now, received }
  obtain ⟨hfollows', hbrings⟩ := hfollows.does (d := d) h.clock hd hle
  refine h.concat (d := d) htodo hle hbrings h.separate
    (h.separate.forall_holds_set ?_ (fun other l he hf => ?_) h.follows hholds)
  · rwa [own_concat, if_pos rfl]
  · rw [own_concat, if_neg (Ne.symm he)]
    exact hf.mono hle

theorem Tracks.step (h : y.Tracks s origin acts) (hle : y.clock ≤ now)
    (hs : Step s now actor y y') : y'.Tracks s origin acts := by
  cases hs with
  | accept hl => exact h.set hle hl fun _ htimes hf => hf.accept htimes
  | turn _ hl ht => exact h.set hle hl fun _ htimes hf => hf.turn (h.clock.trans hle) htimes ht
  | connect htodo => exact h.connect htodo hle
  | act htodo hholds hl hd => exact h.act htodo hholds hl hd hle

theorem tracks_of_reaches (h : Relation.ReflTransGen (Goes s) (start origin acts) y) :
    y.Tracks s origin acts := by
  induction h with
  | refl => exact tracks_start
  | tail _ hstep ih =>
    obtain ⟨now, actor, hle, hstep⟩ := hstep
    exact ih.step hle hstep

end Service

end ScgiStub
