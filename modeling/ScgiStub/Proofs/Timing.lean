import ScgiStub.Proofs.Tracking

/-! # Acts that follow each other at once

If each act begins when the one before is over, and no task is late, the server brings about
what the clients are said to do. A client that is prompt receives the same without the others.
-/

namespace ScgiStub

variable {s : Settings} {now origin : Moment}

open Relation

open Connection (Stage cut)

namespace Link

variable {l l' : Link} {c : Client} {act : Act}

/-- The task has done all that it can do by now for a client that is so. -/
inductive Idle (s : Settings) (now : Moment) : Link → Client → Prop
  | waiting {r since sending} : 0 < s.bufferSize →
      Idle s now ⟨.waiting r, since, [], sending, .working⟩ ⟨.waiting r, since, sending, false⟩
  | due {stage since transit sending stage' since' sending' deferred} :
      stage'.deferred? s since' = some deferred →
      Idle s now
        ⟨stage, since, transit, sending, .due (since'.plus deferred.wait) deferred.reply.wire⟩
        ⟨stage', since', sending', false⟩
  | gone {stage since transit sending r since' sending'} :
      s.bufferSize = 0 ∨ sending' = false ∨ since'.plus s.readTimeout < now →
      Idle s now ⟨stage, since, transit, sending, .written []⟩ ⟨.waiting r, since', sending', false⟩
  | taken {stage since transit sending stage' since' sending'} :
      Idle s now ⟨stage, since, transit, sending, .taken⟩ ⟨stage', since', sending', true⟩

theorem Idle.mono {now' : Moment} (hi : l.Idle s now c) (hle : now ≤ now') : l.Idle s now' c := by
  cases hi with
  | waiting hb => exact .waiting hb
  | due hd => exact .due hd
  | gone hend => exact .gone (hend.imp_right (.imp_right fun hlt => hlt.trans_le hle))
  | taken => exact .taken

theorem turn_read (now : Moment) (r : Reader) (since : Moment) (b : UInt8) (bs : Bytes) {n : Nat}
    (hsize : s.bufferSize = n + 1) :
    Turn s now ⟨.waiting r, since, b :: bs, true, .working⟩
      ⟨Stage.step s (.waiting r) (b :: bs.take n), now, bs.drop n, true, .working⟩ := by
  have hbytes : b :: bs = (b :: bs.take n) ++ bs.drop n := by simp
  have hlen : (b :: bs.take n).length ≤ s.bufferSize := by
    rw [hsize, List.length_cons]
    exact Nat.succ_le_succ (List.length_take_le n bs)
  rw [hbytes]
  exact .read (by simp) hlen

theorem exists_idle (now : Moment) (hb : 0 < s.bufferSize) (r : Reader) (since : Moment) (b : UInt8)
    (bs : Bytes) :
    ∃ l, ReflTransGen (Turn s now) ⟨.waiting r, since, b :: bs, true, .working⟩ l ∧
      l.Idle s now
        ⟨(cut s.bufferSize (b :: bs)).foldl (Stage.step s) (.waiting r), now, true, false⟩ := by
  obtain ⟨n, hsize⟩ := Nat.exists_eq_succ_of_ne_zero hb.ne'
  have hread := turn_read now r since b bs hsize
  have hcut : cut s.bufferSize (b :: bs) = (b :: bs.take n) :: cut s.bufferSize (bs.drop n) := by
    rw [hsize, cut]
  rw [hcut, List.foldl_cons]
  cases hstage : Stage.step s (.waiting r) (b :: bs.take n) with
  | accepted request =>
    rw [hstage] at hread
    rw [Stage.foldl_of_decided (Stage.decided_accepted request)]
    exact ⟨_, .head hread (.single (.answer rfl)), .due rfl⟩
  | rejected rejection =>
    rw [hstage] at hread
    rw [Stage.foldl_of_decided (Stage.decided_rejected rejection)]
    exact ⟨_, .head hread (.single (.answer rfl)), .due rfl⟩
  | waiting r' =>
    rw [hstage] at hread
    cases hrest : bs.drop n with
    | nil =>
      rw [hrest] at hread
      rw [Connection.cut_nil]
      exact ⟨_, .single hread, .waiting hb⟩
    | cons b' bs' =>
      rw [hrest] at hread
      have hlen : bs'.length < bs.length := by
        have hlen := congrArg List.length hrest
        simp only [List.length_drop, List.length_cons] at hlen
        omega
      obtain ⟨l, hl, hi⟩ := exists_idle now hb r' now b' bs'
      exact ⟨l, .head hread hl, hi⟩
termination_by bs.length

theorem act_of_not_awaited {bytes : Bytes} (h : bytes = [] ∨ c.awaited s now = false) :
    c.act s now (.send bytes) = (c, none) := by
  rw [Client.act, if_neg]
  rintro ⟨hne, hawaited⟩
  rcases h with h | h
  · exact hne h
  · rw [h] at hawaited
    cases hawaited

theorem push_nil (l : Link) : l.push [] = l := by
  rw [push]
  split <;> simp

theorem Idle.unmoved (hi : l.Idle s now c) (hl : l.outlet ≠ .working) (bytes : Bytes) :
    ∃ l₁ l₂, ReflTransGen (Turn s now) l l₁ ∧ ReflTransGen (Turn s now) (l₁.push bytes) l₂ ∧
      l₂.Idle s now c :=
  ⟨l, l, .refl, by rw [push_of_ne_working bytes hl], hi⟩

theorem Idle.send (hi : l.Idle s now c) (bytes : Bytes) :
    ∃ l₁ l₂, ReflTransGen (Turn s now) l l₁ ∧ ReflTransGen (Turn s now) (l₁.push bytes) l₂ ∧
      l₂.Idle s now (c.act s now (.send bytes)).1 := by
  cases bytes with
  | nil =>
    rw [act_of_not_awaited (.inl rfl)]
    exact ⟨l, l, .refl, by rw [push_nil], hi⟩
  | cons b bs =>
    cases hi with
    | @waiting r since sending hb =>
      cases sending with
      | false =>
        rw [act_of_not_awaited (.inr rfl)]
        exact ⟨_, _, .refl, .refl, .waiting hb⟩
      | true =>
        by_cases htime : now ≤ since.plus s.readTimeout
        · have hact : Client.act s now ⟨.waiting r, since, true, false⟩ (.send (b :: bs)) =
              (⟨(cut s.bufferSize (b :: bs)).foldl (Stage.step s) (.waiting r), now, true, false⟩,
                none) :=
            if_pos ⟨by simp, by simp [Client.awaited, htime]⟩
          obtain ⟨l, hl, hi⟩ := exists_idle now hb r since b bs
          rw [hact]
          exact ⟨_, l, .refl, hl, hi⟩
        · rw [act_of_not_awaited (.inr (by simp [Client.awaited, htime]))]
          exact ⟨_, _, .single (.giveUp (not_le.mp htime).le), .refl,
            .gone (.inr (.inr (not_le.mp htime)))⟩
    | @due _ _ _ _ stage' since' sending' deferred hd =>
      have hawaited : Client.awaited s now ⟨stage', since', sending', false⟩ = false := by
        cases stage' with
        | waiting => cases hd
        | accepted | rejected => rfl
      rw [act_of_not_awaited (.inr hawaited)]
      exact Idle.unmoved (.due hd) (by simp) (b :: bs)
    | @gone _ _ _ _ r since' sending' hend =>
      by_cases hawaited : Client.awaited s now ⟨.waiting r, since', sending', false⟩
      · have hb : s.bufferSize = 0 := by
          simp only [Client.awaited, Bool.not_false, Bool.and_true, Bool.and_eq_true,
            decide_eq_true_eq] at hawaited
          rcases hend with hb | hclosed | hlate
          · exact hb
          · exact absurd hawaited.1 (by simp [hclosed])
          · exact absurd hawaited.2 (not_le.mpr hlate)
        have hact : Client.act s now ⟨.waiting r, since', sending', false⟩ (.send (b :: bs)) =
            (⟨.waiting r, now, sending', false⟩, none) := by
          rw [Client.act, if_pos ⟨by simp, hawaited⟩, hb, cut]
          rfl
        rw [hact]
        exact Idle.unmoved (.gone (.inl hb)) (by simp) (b :: bs)
      · rw [act_of_not_awaited (.inr (by simpa using hawaited))]
        exact Idle.unmoved (.gone hend) (by simp) (b :: bs)
    | @taken _ _ _ _ stage' since' sending' =>
      have hawaited : Client.awaited s now ⟨stage', since', sending', true⟩ = false := by
        cases stage' <;> simp [Client.awaited]
      rw [act_of_not_awaited (.inr hawaited)]
      exact Idle.unmoved .taken (by simp) (b :: bs)

theorem Idle.finish (hi : l.Idle s now c) :
    Idle s now { l with sending := false } (c.act s now .finish).1 := by
  cases hi with
  | waiting hb => exact .waiting hb
  | due hd => exact .due hd
  | gone => exact .gone (.inr (.inl rfl))
  | taken => exact .taken

theorem Idle.receive (hi : l.Idle s now c) :
    ∃ l₁ l₂, ReflTransGen (Turn s (c.finished s now .receive)) l l₁ ∧
      l₁.Does .receive (c.act s now .receive).2 l₂ ∧
      l₂.Idle s (c.finished s now .receive) (c.act s now .receive).1 := by
  cases hi with
  | @waiting r since sending hb =>
    refine ⟨⟨.waiting r, since, [], sending, .written []⟩, _, ?_, .receive, .taken⟩
    cases sending with
    | false => exact .single (.leave (.inr ⟨rfl, rfl⟩))
    | true =>
      refine .single (.giveUp ?_)
      simp [Client.finished, Client.closing, Connection.Stage.deferred?, hb.ne',
        Moment.le_later_right]
  | @due stage since transit sending stage' since' sending' deferred hd =>
    have hreceived : (Client.act s now ⟨stage', since', sending', false⟩ .receive).2 =
        some deferred.reply.wire := by
      simp [Client.act, Connection.Stage.reply?, hd]
    rw [hreceived]
    refine ⟨⟨stage, since, transit, sending, .written deferred.reply.wire⟩, _, ?_, .receive, .taken⟩
    refine .single (.write ?_)
    simp [Client.finished, Client.closing, hd, Moment.le_later_right]
  | gone => exact ⟨_, _, .refl, .receive, .taken⟩
  | taken => exact ⟨_, _, .refl, .again, .taken⟩

theorem exists_idle_fresh (s : Settings) (now : Moment) :
    ∃ l, ReflTransGen (Turn s now) (fresh s now) l ∧ l.Idle s now (.fresh s now) := by
  rcases Nat.eq_zero_or_pos s.bufferSize with hb | hb
  · exact ⟨_, .single (.leave (.inl hb)), .gone (.inl hb)⟩
  · exact ⟨_, .refl, .waiting hb⟩

theorem le_finished (s : Settings) (now : Moment) (c : Client) (act : Act) :
    now ≤ c.finished s now act := by
  cases act with
  | receive =>
    rw [Client.finished]
    split
    · exact le_refl now
    · exact Moment.le_later_left now _
  | _ => exact le_refl now

theorem Idle.does (hi : l.Idle s now c) (hact : act ≠ .connect) :
    ∃ l₁ l₂ l₃, ReflTransGen (Turn s (c.finished s now act)) l l₁ ∧
      l₁.Does act (c.act s now act).2 l₂ ∧ ReflTransGen (Turn s (c.finished s now act)) l₂ l₃ ∧
      l₃.Idle s (c.finished s now act) (c.act s now act).1 := by
  cases act with
  | connect => exact absurd rfl hact
  | send bytes =>
    obtain ⟨l₁, l₂, h₁, h₂, hi⟩ := hi.send bytes
    have hnone : (c.act s now (.send bytes)).2 = none := by
      rw [Client.act]
      split <;> rfl
    exact ⟨l₁, _, l₂, h₁, hnone ▸ .send, h₂, hi⟩
  | finish => exact ⟨l, _, _, .refl, .finish, .refl, hi.finish⟩
  | receive =>
    obtain ⟨l₁, l₂, h₁, hd, hi⟩ := hi.receive
    exact ⟨l₁, l₂, l₂, h₁, hd, .refl, hi⟩

end Link

def Client.deed (s : Settings) (now : Moment) (c : Client) (name : String) (act : Act) : Deed :=
  { client := name
    act
    time := c.finished s now act
    received := (c.act s now act).2 }

namespace Service

variable {y : Service} {state : Traffic.State} {acts todo : List (String × Act)} {name : String}
  {act : Act}

theorem set_of_getElem? {α : Type} {as : List α} {i : Nat} {a : α} (h : as[i]? = some a) :
    as.set i a = as := by
  obtain ⟨hi, rfl⟩ := List.getElem?_eq_some_iff.mp h
  exact List.set_getElem_self hi

theorem exists_goes_of_turns {i : Nat} {l l' : Link} (ht : ReflTransGen (Link.Turn s now) l l')
    (hi : i < y.accepted) (hl : y.links[i]? = some l) (hle : y.clock ≤ now) :
    ∃ clock, y.clock ≤ clock ∧ clock ≤ now ∧
      ReflTransGen (Goes s) y { y with clock, links := y.links.set i l' } := by
  induction ht with
  | refl =>
    refine ⟨y.clock, le_refl y.clock, hle, ?_⟩
    rw [set_of_getElem? hl]
  | @tail l₁ l₂ _ hturn ih =>
    obtain ⟨clock, hclock, hclock', hgoes⟩ := ih
    have hl₁ : (y.links.set i l₁)[i]? = some l₁ := by
      simp [(List.getElem?_eq_some_iff.mp hl).1]
    have hstep := Step.turn (y := { y with clock, links := y.links.set i l₁ }) hi hl₁ hturn
    rw [List.set_set] at hstep
    exact ⟨now, hle, le_refl now, hgoes.tail ⟨now, _, hclock', hstep⟩⟩

/-- The server has done all that it can do by now for clients that are so. -/
structure Serves (s : Settings) (y : Service) (state : Traffic.State) : Prop where
  accepted : y.accepted = y.links.length
  separate : Separate y.holds
  idle : ∀ name i, y.holds name = some i →
    ∃ l, y.links[i]? = some l ∧ l.Idle s y.clock (state name)

/-- The next act is done as its client is said to do it, and the server serves what comes of it. -/
structure Performs (s : Settings) (y : Service) (state : Traffic.State) (name : String) (act : Act)
    (y' : Service) : Prop where
  goes : ReflTransGen (Goes s) y y'
  serves : y'.Serves s (state.set name ((state name).act s y.clock act).1)
  clock : y'.clock = (state name).finished s y.clock act
  todo : y.todo = (name, act) :: y'.todo
  log : y'.log = y.log ++ [(state name).deed s y.clock name act]

theorem Serves.exists_connect (h : y.Serves s state) (htodo : y.todo = (name, .connect) :: todo) :
    ∃ y', y.Performs s state name .connect y' := by
  let made : Service :=
    { y with
      links := y.links ++ [.fresh s y.clock]
      holds := fun other => if other = name then some y.links.length else y.holds other
      todo
      log := y.log ++ [{ client := name, act := .connect, time := y.clock, received := none }] }
  let accepted : Service := { made with accepted := y.accepted + 1 }
  have hmade : Goes s y made := ⟨y.clock, .client, le_refl y.clock, .connect htodo⟩
  have hnew : made.links[y.links.length]? = some (.fresh s y.clock) := by simp [made]
  have haccepted : Goes s made accepted := by
    have hstep : Step s y.clock .acceptor made _ := .accept (h.accepted ▸ hnew)
    rw [set_of_getElem? (h.accepted ▸ hnew)] at hstep
    exact ⟨y.clock, .acceptor, le_refl y.clock, hstep⟩
  obtain ⟨l, hturns, hidle⟩ := Link.exists_idle_fresh s y.clock
  have hlt : y.links.length < accepted.accepted := by simp [accepted, h.accepted]
  obtain ⟨clock, hclock, hclock', hgoes⟩ :=
    exists_goes_of_turns (y := accepted) hturns hlt hnew (le_refl y.clock)
  obtain rfl : clock = y.clock := le_antisymm hclock' hclock
  refine ⟨_, .head hmade (.head haccepted hgoes), ?_, rfl, htodo, rfl⟩
  have hlinks : accepted.links.set y.links.length l = y.links ++ [l] := by simp [accepted, made]
  refine ⟨by simp [accepted, made, h.accepted], h.separate.connect h.idle name, ?_⟩
  rw [hlinks]
  refine forall_holds_append ?_ (fun other l' he hi => ?_) h.idle
  · rwa [Traffic.State.set_self]
  · rwa [Traffic.State.set_of_ne he]

theorem Serves.exists_act {i : Nat} (h : y.Serves s state) (htodo : y.todo = (name, act) :: todo)
    (hact : act ≠ .connect) (hholds : y.holds name = some i) :
    ∃ y', y.Performs s state name act y' := by
  obtain ⟨l, hl, hidle⟩ := h.idle name i hholds
  obtain ⟨l₁, l₂, l₃, hbefore, hdoes, hafter, hidle'⟩ := hidle.does hact
  have htime := Link.le_finished s y.clock (state name) act
  have hlt := (List.getElem?_eq_some_iff.mp hl).1
  obtain ⟨clock, hclock, hclock', hgoes⟩ :=
    exists_goes_of_turns hbefore (h.accepted ▸ hlt) hl htime
  have hl₁ : (y.links.set i l₁)[i]? = some l₁ := by simp [hlt]
  have hstep : Step s ((state name).finished s y.clock act) .client
      { y with clock, links := y.links.set i l₁ } _ := .act htodo hholds hl₁ hdoes
  rw [List.set_set] at hstep
  let done : Service :=
    { y with
      clock := (state name).finished s y.clock act
      links := y.links.set i l₂
      todo
      log := y.log ++ [(state name).deed s y.clock name act] }
  have hl₂ : done.links[i]? = some l₂ := by simp [done, hlt]
  obtain ⟨last, hlast, hlast', hrest⟩ :=
    exists_goes_of_turns (y := done) hafter (h.accepted ▸ hlt) hl₂ (le_refl done.clock)
  obtain rfl : last = done.clock := le_antisymm hlast' hlast
  rw [List.set_set] at hrest
  refine ⟨_, (hgoes.tail ⟨_, _, hclock', hstep⟩).trans hrest, ?_, rfl, htodo, rfl⟩
  refine ⟨by simp [done, h.accepted], h.separate,
    h.separate.forall_holds_set ?_ (fun other l' he hi => ?_) h.idle hholds⟩
  · rwa [Traffic.State.set_self]
  · rw [Traffic.State.set_of_ne he]
    exact hi.mono htime

/-- What is to be done can be done, and then is what the clients are said to do. -/
theorem Serves.exists_goes {y : Service} {state : Traffic.State} (h : y.Serves s state)
    (hready : y.Ready) :
    ∃ y', ReflTransGen (Goes s) y y' ∧ y'.todo = [] ∧
      y'.log = y.log ++ Traffic.deeds s y.clock state y.todo := by
  cases htodo : y.todo with
  | nil => exact ⟨y, .refl, htodo, by rw [Traffic.deeds, List.append_nil]⟩
  | cons e todo =>
    obtain ⟨name, act⟩ := e
    obtain ⟨y₁, hp⟩ : ∃ y', y.Performs s state name act y' := by
      by_cases hact : act = .connect
      · subst hact
        exact h.exists_connect htodo
      · obtain ⟨i, -, hholds, -⟩ := hready.exists_link htodo hact
        exact h.exists_act htodo hact hholds
    obtain rfl : y₁.todo = todo := (List.cons.inj (hp.todo.symm.trans htodo)).2
    obtain ⟨y', hgoes, htodo', hlog⟩ := hp.serves.exists_goes (hready.of_reaches hp.goes)
    refine ⟨y', hp.goes.trans hgoes, htodo', ?_⟩
    rw [hlog, hp.log, hp.clock, Traffic.deeds, List.append_assoc]
    rfl
termination_by y.todo.length
decreasing_by simp [htodo]

theorem serves_start (s : Settings) (now : Moment) (acts : List (String × Act)) :
    (start now acts).Serves s (Traffic.start s) where
  accepted := rfl
  separate := nofun
  idle := nofun

end Service

namespace Traffic

variable {acts : List (String × Act)} {name : String} {state : State} {d : Deed}

def own (name : String) (acts : List (String × Act)) : List (String × Act) :=
  acts.filter (·.1 = name)

theorem map_deeds : (deeds s now state acts).map (fun d => (d.client, d.act)) = acts := by
  induction acts generalizing now state with
  | nil => rfl
  | cons e acts ih => rw [deeds, List.map_cons, ih]

theorem map_act_own (log : List Deed) : (Deed.own name log).map Deed.act =
    (own name (log.map fun d => (d.client, d.act))).map (·.2) := by
  rw [own, List.filter_map, List.map_map]
  rfl

theorem isChain_deeds :
    (deeds s now state acts).IsChain fun d d' => d'.act ≠ .receive → d'.time = d.time := by
  induction acts generalizing now state with
  | nil => exact .nil
  | cons e acts ih =>
    rw [deeds, List.isChain_cons]
    refine ⟨fun d hd hact => ?_, ih⟩
    cases acts with
    | nil => cases hd
    | cons e' acts =>
      obtain rfl := Option.some_inj.mp hd
      cases hact' : e'.2 with
      | receive => exact absurd hact' hact
      | _ => simp only [Client.finished]

theorem own_deeds_own : Deed.own name (deeds s now state (own name acts)) =
    deeds s now state (own name acts) := by
  refine List.filter_eq_self.mpr fun d hd => ?_
  have hmap : (deeds s now state (own name acts)).map (fun d => (d.client, d.act)) =
      own name acts := map_deeds
  have hm : (d.client, d.act) ∈ own name acts := hmap ▸ List.mem_map_of_mem hd
  exact (List.mem_filter.mp hm).2

theorem opened_own {names names' : List String} (h : Service.Opened names acts)
    (hnames : name ∈ names → name ∈ names') : Service.Opened names' (own name acts) := by
  induction acts generalizing names names' with
  | nil => trivial
  | cons e acts ih =>
    obtain ⟨client, act⟩ := e
    by_cases hc : client = name
    · subst hc
      have hown : own client ((client, act) :: acts) = (client, act) :: own client acts := by
        simp [own]
      rw [hown]
      exact ⟨h.1.imp_right hnames, ih h.2 fun _ => List.mem_cons_self⟩
    · have hown : own name ((client, act) :: acts) = own name acts := by simp [own, hc]
      rw [hown]
      exact ih h.2 fun hm => hnames ((List.mem_cons.mp hm).resolve_left (Ne.symm hc))

theorem exists_goes (s : Settings) (now : Moment) (h : Service.Opened [] acts) :
    ∃ y, ReflTransGen (Service.Goes s) (Service.start now acts) y ∧ y.todo = [] ∧
      y.log = deeds s now (start s) acts := by
  obtain ⟨y, hgoes, htodo, hlog⟩ :=
    (Service.serves_start s now acts).exists_goes (Service.ready_start h)
  exact ⟨y, hgoes, htodo, hlog⟩

/-- Who is prompt receives the same with the acts of all others left out. -/
theorem received_eq_run_own {y : Service} {last : Moment}
    (hy : ReflTransGen (Service.Goes s) (Service.start now acts) y) (htodo : y.todo = [])
    (hp : Conduct.Punctual s (Deed.own name y.log)) (halike : s.SleepsAlike now last)
    (hlast : ∀ d ∈ Deed.own name y.log ++ deeds s now (start s) (own name acts), d.time ≤ last) :
    (Deed.own name y.log).map Deed.received = run s now (start s) (own name acts) := by
  have htracks := Service.tracks_of_reaches hy
  obtain ⟨names, -, hopened⟩ := Service.opened_of_reaches hy
  have hown : Service.Opened [] (own name acts) :=
    opened_own (hopened (htodo.symm ▸ trivial)) id
  obtain ⟨y', hy', -, hlog'⟩ := exists_goes s now hown
  have htracks' := Service.tracks_of_reaches hy'
  have hexplained' := htracks'.explained name
  rw [hlog', own_deeds_own] at hexplained'
  have hacts : (Deed.own name y.log).map Deed.act =
      (deeds s now (start s) (own name acts)).map Deed.act := by
    have hlog := htracks.acts
    rw [htodo, List.append_nil] at hlog
    rw [map_act_own, ← hlog, ← own_deeds_own, map_act_own, map_deeds, own, own, List.filter_filter]
    simp only [Bool.and_self]
  have hsorted : (Deed.own name y.log).Pairwise fun d d' => d.time ≤ d'.time :=
    htracks.sorted.filter _
  refine (htracks.explained name).received_eq hexplained' hacts hp
    (hp.of_isChain hsorted hacts isChain_deeds) (fun d hd => hlast d (List.mem_append_left _ hd))
    (fun d hd => hlast d (List.mem_append_right _ hd))
    fun t t' ht ht' hu hu' path? units hpath => ?_
  rw [← halike.between ht ht' path? units hpath, ← halike.between hu hu' path? units hpath]

/-- Connections do not interfere, but for the time that passes. In every run, however tasks and
clients take turns and whenever they do, a client first receives the reply to the bytes that it
has sent before on its connection, or to those before some that the server waited for and that
came too late, and nothing after that. If none came too late, it receives what it receives with
the acts of all others left out. Every run comes to an end. If all connect first, a client waits
on the way for its own task and for nobody else's, and in one of the runs each act begins when
the one before is over. -/
theorem run_isolated (s : Settings) (now : Moment) (acts : List (String × Act)) :
    (∀ y, ReflTransGen (Service.Goes s) (Service.start now acts) y →
      acts = y.log.map (fun d => (d.client, d.act)) ++ y.todo ∧
      ∀ name before d later, Deed.own name y.log = before ++ d :: later →
        Conduct.Brings s now before d ∧
        (d.act = .receive → ¬ Conduct.Served before → Conduct.Prompt s (Conduct.signals before) →
          ∃ time, now ≤ time ∧ time ≤ d.time ∧
            d.received = some (Connection.output s time (Conduct.sent before)))) ∧
    (∀ y, ReflTransGen (Service.Goes s) (Service.start now acts) y → y.todo = [] →
      ∀ name last, Conduct.Punctual s (Deed.own name y.log) → s.SleepsAlike now last →
        (∀ d ∈ Deed.own name y.log ++ deeds s now (start s) (own name acts), d.time ≤ last) →
        (Deed.own name y.log).map Deed.received = run s now (start s) (own name acts)) ∧
    (WellFounded fun y' y => Service.Goes s y y') ∧
    (Service.Opened [] acts →
      (∀ y, ReflTransGen (Service.Goes s) (Service.start now acts) y →
        ∀ client act todo, y.todo = (client, act) :: todo →
          ∃ time actor y', y.clock ≤ time ∧ y.Soon s client time ∧ y.Concerns client actor ∧
            Service.Step s time actor y y') ∧
      ∃ y, ReflTransGen (Service.Goes s) (Service.start now acts) y ∧ y.todo = [] ∧
        y.log = deeds s now (start s) acts) := by
  refine ⟨fun y hy => ⟨(Service.tracks_of_reaches hy).acts, fun name before d later hown => ?_⟩,
    fun y hy htodo name last => received_eq_run_own hy htodo, Service.wellFounded_goes,
    fun hopened => ⟨fun y hy client act todo htodo => ?_, exists_goes s now hopened⟩⟩
  · have hbrings := ((Service.tracks_of_reaches hy).explained name).brings hown
    refine ⟨hbrings, fun hact hnot hp => ?_⟩
    cases hbrings with
    | nothing hne => exact absurd hact hne
    | again _ hserved => exact absurd hserved hnot
    | reply _ _ hr htime htime' hreceived =>
      exact ⟨_, htime, htime', by rw [hreceived, hr.eq_sent hp]⟩
  · exact ((Service.ready_start hopened).of_reaches hy).exists_step htodo

theorem run_isolated_two_clients :
    let s : Settings := { sleepUnit := .ofMilliseconds 100 }
    let slow := Utf8.encode "24:CONTENT_LENGTH\x000\x00SCGI\x001\x00,"
    let sleepy :=
      Utf8.encode "48:CONTENT_LENGTH\x000\x00SCGI\x001\x00PATH_INFO\x00/test_sleep_5\x00,"
    let acts : List (String × Act) :=
      [("a", .connect), ("a", .send (slow.take 5)), ("b", .connect), ("b", .send sleepy),
        ("b", .receive), ("a", .send (slow.drop 5)), ("a", .receive), ("b", .receive)]
    Service.Opened [] acts ∧
      ∃ y, ReflTransGen (Service.Goes s) (Service.start (.ofSeconds 0) acts) y ∧ y.todo = [] ∧
        (Deed.own "a" y.log).Punctual s ∧
        (Deed.own "a" y.log).map Deed.received =
          run s (.ofSeconds 0) (start s) (own "a" acts) ∧
        y.log.map Deed.received = [none, none, none, none,
          some (Utf8.encode "20 text/plain\r\nslept 5\n"), none,
          some (Utf8.encode "20 text/plain\r\nsome other path received\n"), some []] := by
  intro s slow sleepy acts
  have hopened : Service.Opened [] acts := by simp [acts, Service.Opened]
  obtain ⟨-, hruns, -, hserved⟩ := run_isolated s (.ofSeconds 0) acts
  obtain ⟨-, y, hy, htodo, hlog⟩ := hserved hopened
  have hpunctual : (Deed.own "a" y.log).Punctual s := by
    rw [hlog]
    exact .of_within (t := .ofSeconds 0) (by decide +kernel)
  have halike : s.SleepsAlike (.ofSeconds 0) (.ofSeconds 1) :=
    Settings.sleepsAlike_of_lt (by decide) (by decide)
  refine ⟨hopened, y, hy, htodo, hpunctual,
    hruns y hy htodo "a" (.ofSeconds 1) hpunctual halike ?_, ?_⟩
  · rw [hlog]
    decide +kernel
  · rw [hlog]
    decide +kernel

/-- A client that waits for another one between its sends comes too late with the rest of its
request, and gets the reply to it if it is alone. -/
theorem run_not_isolated :
    let s : Settings := { readTimeout := .ofMilliseconds 200, sleepUnit := .ofMilliseconds 100 }
    let slow := Utf8.encode "24:CONTENT_LENGTH\x000\x00SCGI\x001\x00,"
    let sleepy :=
      Utf8.encode "48:CONTENT_LENGTH\x000\x00SCGI\x001\x00PATH_INFO\x00/test_sleep_5\x00,"
    let acts : List (String × Act) :=
      [("a", .connect), ("a", .send (slow.take 5)), ("b", .connect), ("b", .send sleepy),
        ("b", .receive), ("a", .send (slow.drop 5)), ("a", .receive)]
    Service.Opened [] acts ∧
      (∃ y, ReflTransGen (Service.Goes s) (Service.start (.ofSeconds 0) acts) y ∧ y.todo = [] ∧
        (Deed.own "a" y.log).map Deed.received = [none, none, none, some []]) ∧
      run s (.ofSeconds 0) (start s) (own "a" acts) =
        [none, none, none, some (Utf8.encode "20 text/plain\r\nsome other path received\n")] := by
  intro s slow sleepy acts
  have hopened : Service.Opened [] acts := by simp [acts, Service.Opened]
  obtain ⟨y, hy, htodo, hlog⟩ := exists_goes s (.ofSeconds 0) hopened
  refine ⟨hopened, ⟨y, hy, htodo, ?_⟩, by decide +kernel⟩
  rw [hlog]
  decide +kernel

end Traffic

end ScgiStub
