import Mathlib.Algebra.GroupWithZero.Nat
import Mathlib.Logic.Relation
import ScgiStub.Proofs.Isolation

/-! # The tasks of the server

The server gives each connection a task of its own. However tasks and clients take turns, and
however much time passes between them, a client receives the reply to what has reached its own
task, and waits for no other.
-/

namespace ScgiStub

variable {s : Settings} {now : Moment}

inductive Outlet where
  | working
  /-- The task will write this, and not before that time. -/
  | due (time : Moment) (bytes : Bytes)
  | written (bytes : Bytes)
  | taken
  deriving DecidableEq

structure Link where
  stage : Connection.Stage
  since : Moment
  transit : Bytes
  sending : Bool
  outlet : Outlet

namespace Link

def fresh (s : Settings) (now : Moment) : Link :=
  { stage := .start s, since := now, transit := [], sending := true, outlet := .working }

/-- Nothing reaches a task that is done with reading, or comes after the end. -/
def push (l : Link) (bytes : Bytes) : Link :=
  if l.sending ∧ l.outlet = .working then { l with transit := l.transit ++ bytes } else l

/-- What a task can do: read some of what is there, give up if there has been nothing for too
long, and leave at the end of the bytes; with no room for a byte, that is at once. When the
reading is over, it answers, and writes when the wait is over. -/
inductive Turn (s : Settings) (now : Moment) : Link → Link → Prop
  | read {r since chunk rest sending} : chunk ≠ [] → chunk.length ≤ s.bufferSize →
      Turn s now ⟨.waiting r, since, chunk ++ rest, sending, .working⟩
        ⟨.ofOutcome s (r.feed chunk), now, rest, sending, .working⟩
  | giveUp {r since sending} : since.plus s.readTimeout ≤ now →
      Turn s now ⟨.waiting r, since, [], sending, .working⟩
        ⟨.waiting r, since, [], sending, .written []⟩
  | leave {r since transit sending} : s.bufferSize = 0 ∨ transit = [] ∧ sending = false →
      Turn s now ⟨.waiting r, since, transit, sending, .working⟩
        ⟨.waiting r, since, transit, sending, .written []⟩
  | answer {stage since transit sending deferred} : stage.deferred? s now = some deferred →
      Turn s now ⟨stage, since, transit, sending, .working⟩
        ⟨stage, since, transit, sending, .due (now.plus deferred.wait) deferred.reply.wire⟩
  | write {stage since transit sending time bytes} : time ≤ now →
      Turn s now ⟨stage, since, transit, sending, .due time bytes⟩
        ⟨stage, since, transit, sending, .written bytes⟩

inductive Does : Link → Act → Option Bytes → Link → Prop
  | send {l bytes} : Does l (.send bytes) none (l.push bytes)
  | finish {l} : Does l .finish none { l with sending := false }
  | receive {stage since transit sending bytes} :
      Does ⟨stage, since, transit, sending, .written bytes⟩ .receive (some bytes)
        ⟨stage, since, transit, sending, .taken⟩
  | again {stage since transit sending} :
      Does ⟨stage, since, transit, sending, .taken⟩ .receive (some [])
        ⟨stage, since, transit, sending, .taken⟩

/-- When the task goes on by itself. -/
def alarm (s : Settings) (l : Link) : Moment :=
  match l.outlet with
  | .due time _ => time
  | _ => l.since.plus s.readTimeout

end Link

/-- The server, its clients, what these have still to do, and what was done. -/
structure Service where
  clock : Moment
  links : List Link := []
  accepted : Nat := 0
  /-- The connection that a client has. -/
  holds : String → Option Nat := fun _ => none
  todo : List (String × Act)
  log : List Deed := []

namespace Service

inductive Actor where
  | acceptor
  | task (i : Nat)
  | client

inductive Step (s : Settings) (now : Moment) : Actor → Service → Service → Prop
  | accept {y : Service} {l} : y.links[y.accepted]? = some l →
      Step s now .acceptor y
        { y with
          clock := now
          links := y.links.set y.accepted { l with since := now }
          accepted := y.accepted + 1 }
  | turn {y : Service} {i l l'} : i < y.accepted → y.links[i]? = some l → l.Turn s now l' →
      Step s now (.task i) y { y with clock := now, links := y.links.set i l' }
  | connect {y : Service} {name todo} : y.todo = (name, .connect) :: todo →
      Step s now .client y
        { y with
          clock := now
          links := y.links ++ [.fresh s now]
          holds := fun other => if other = name then some y.links.length else y.holds other
          todo
          log := y.log ++ [{ client := name, act := .connect, time := now, received := none }] }
  | act {y : Service} {name act todo i l received l'} : y.todo = (name, act) :: todo →
      y.holds name = some i → y.links[i]? = some l → l.Does act received l' →
      Step s now .client y
        { y with
          clock := now
          links := y.links.set i l'
          todo
          log := y.log ++ [{ client := name, act, time := now, received }] }

/-- Some time passes, and then somebody does something. -/
def Goes (s : Settings) (y y' : Service) : Prop :=
  ∃ now actor, y.clock ≤ now ∧ Step s now actor y y'

def start (now : Moment) (acts : List (String × Act)) : Service :=
  { clock := now, todo := acts }

end Service

namespace Link

variable {l l' : Link} {act : Act} {received : Option Bytes}

/-- A client that reads has its reply, or its own task goes on, now or at its own time. -/
theorem exists_turn_or_receive (s : Settings) (now : Moment) (l : Link) :
    (∃ time l', now ≤ time ∧ (time = now ∨ time = l.alarm s) ∧ l.Turn s time l') ∨
      ∃ received l', l.Does .receive received l' := by
  obtain ⟨stage, since, transit, sending, outlet⟩ := l
  have hlater (alarm : Moment) : now ≤ now.later alarm ∧ alarm ≤ now.later alarm ∧
      (now.later alarm = now ∨ now.later alarm = alarm) :=
    ⟨Moment.le_later_left now alarm, Moment.le_later_right now alarm, Moment.later_eq now alarm⟩
  cases outlet with
  | written bytes => exact .inr ⟨_, _, .receive⟩
  | taken => exact .inr ⟨_, _, .again⟩
  | due time bytes =>
    obtain ⟨hnow, halarm, heq⟩ := hlater time
    exact .inl ⟨_, _, hnow, heq, .write halarm⟩
  | working =>
    have hnow {l'} (ht : Turn s now ⟨stage, since, transit, sending, .working⟩ l') :
        ∃ time l', now ≤ time ∧ (time = now ∨ time = since.plus s.readTimeout) ∧
          Turn s time ⟨stage, since, transit, sending, .working⟩ l' :=
      ⟨now, l', le_refl now, .inl rfl, ht⟩
    left
    cases stage with
    | accepted request => exact hnow (.answer rfl)
    | rejected rejection => exact hnow (.answer rfl)
    | waiting r =>
      cases transit with
      | nil =>
        obtain ⟨hle, halarm, heq⟩ := hlater (since.plus s.readTimeout)
        exact ⟨_, _, hle, heq, .giveUp halarm⟩
      | cons b rest =>
        rcases Nat.eq_zero_or_pos s.bufferSize with hb | hb
        · exact hnow (.leave (.inl hb))
        · have hread : Turn s now ⟨.waiting r, since, [b] ++ rest, sending, .working⟩ _ :=
            .read (by simp) hb
          exact hnow hread

theorem exists_does (hconnect : act ≠ .connect) (hreceive : act ≠ .receive) :
    ∃ l', l.Does act none l' := by
  cases act with
  | connect => exact absurd rfl hconnect
  | send bytes => exact ⟨_, .send⟩
  | finish => exact ⟨_, .finish⟩
  | receive => exact absurd rfl hreceive

def weight (l : Link) : Nat :=
  l.transit.length + match l.outlet with
    | .working => 2
    | .due _ _ => 1
    | _ => 0

theorem Turn.weight_lt (ht : l.Turn s now l') : l'.weight < l.weight := by
  cases ht with
  | read hne _ =>
    have hlen := List.length_pos_iff.mpr hne
    simp only [weight, List.length_append]
    omega
  | giveUp | leave | answer | write => simp [weight]

end Link

def Act.weight : Act → Nat
  | .connect => 4
  | act => act.bytes.length + 1

theorem Link.Does.weight_lt {l l' : Link} {act : Act} {received : Option Bytes}
    (hd : l.Does act received l') : l'.weight < l.weight + act.weight := by
  cases hd with
  | @send l bytes =>
    rw [push]
    split
    · simp only [weight, Act.weight, Act.bytes, List.length_append]
      omega
    · simp only [weight, Act.weight]
      omega
  | finish | receive | again => simp [weight, Act.weight, Act.bytes]

/-! ## All connections -/

namespace Service

variable {y y' : Service} {actor : Actor} {acts : List (String × Act)} {name : String}

theorem sum_map_set {α : Type} {f : α → Nat} {as : List α} {i : Nat} {a : α} (h : as[i]? = some a)
    (b : α) : ((as.set i b).map f).sum + f a = (as.map f).sum + f b := by
  induction as generalizing i with
  | nil => simp at h
  | cons a' as ih =>
    cases i with
    | zero =>
      obtain rfl : a' = a := by simpa using h
      simp only [List.set_cons_zero, List.map_cons, List.sum_cons]
      omega
    | succ i =>
      have hset := ih (i := i) (by simpa using h)
      simp only [List.set_cons_succ, List.map_cons, List.sum_cons]
      omega

def weight (y : Service) : Nat :=
  (y.todo.map fun e => e.2.weight).sum + (y.links.map Link.weight).sum +
    (y.links.length - y.accepted)

theorem Step.weight_lt (h : Step s now actor y y') : y'.weight < y.weight := by
  cases h with
  | @accept y l hl =>
    have hsum := sum_map_set (f := Link.weight) hl { l with since := now }
    have hlt := (List.getElem?_eq_some_iff.mp hl).1
    have hsame : Link.weight { l with since := now } = l.weight := rfl
    simp only [weight, List.length_set]
    omega
  | @turn y i l l' hi hl ht =>
    have hsum := sum_map_set (f := Link.weight) hl l'
    have hlt := ht.weight_lt
    simp only [weight, List.length_set]
    omega
  | connect htodo =>
    have hfresh : (Link.fresh s now).weight = 2 := rfl
    simp only [weight, htodo, List.map_cons, List.sum_cons, List.map_append, List.sum_append,
      List.length_append, List.map_nil, List.sum_nil, List.length_cons, List.length_nil, hfresh,
      Act.weight]
    omega
  | @act y name act todo i l received l' htodo hholds hl hd =>
    have hsum := sum_map_set (f := Link.weight) hl l'
    have hlt := hd.weight_lt
    simp only [weight, htodo, List.map_cons, List.sum_cons, List.length_set]
    omega

/-- Only time goes on forever. -/
theorem wellFounded_goes : WellFounded fun y' y => Goes s y y' :=
  Subrelation.wf (fun ⟨_, _, _, h⟩ => h.weight_lt) (measure weight).wf

/-- Every client connects before it does anything else; those named have connected. -/
def Opened (names : List String) : List (String × Act) → Prop
  | [] => True
  | (name, act) :: acts => (act = .connect ∨ name ∈ names) ∧ Opened (name :: names) acts

theorem opened_of_step {names : List String} (hs : Step s now actor y y')
    (hnames : ∀ name i, y.holds name = some i → name ∈ names) :
    ∃ names', (∀ name i, y'.holds name = some i → name ∈ names') ∧
      (Opened names' y'.todo → Opened names y.todo) := by
  cases hs with
  | accept => exact ⟨names, hnames, id⟩
  | turn => exact ⟨names, hnames, id⟩
  | @connect y name todo htodo =>
    refine ⟨name :: names, fun other i hi => ?_, fun h => htodo ▸ ⟨.inl rfl, h⟩⟩
    by_cases he : other = name
    · exact he ▸ List.mem_cons_self
    · exact List.mem_cons_of_mem name (hnames other i (by simpa [he] using hi))
  | @act y name act todo i l received l' htodo hholds hl hd =>
    refine ⟨name :: names, fun other j hj => ?_, fun h => htodo ▸ ⟨.inr (hnames name i hholds), h⟩⟩
    exact List.mem_cons_of_mem name (hnames other j hj)

theorem opened_of_reaches (hr : Relation.ReflTransGen (Goes s) (start now acts) y) :
    ∃ names, (∀ name i, y.holds name = some i → name ∈ names) ∧
      (Opened names y.todo → Opened [] acts) := by
  induction hr with
  | refl => exact ⟨[], nofun, id⟩
  | tail _ hstep ih =>
    obtain ⟨names, hnames, hopened⟩ := ih
    obtain ⟨_, _, _, hstep⟩ := hstep
    obtain ⟨names', hnames', hopened'⟩ := opened_of_step hstep hnames
    exact ⟨names', hnames', hopened ∘ hopened'⟩

def Ready (y : Service) : Prop :=
  ∃ names, Opened names y.todo ∧ ∀ name ∈ names, ∃ i, y.holds name = some i ∧ i < y.links.length

theorem ready_start (h : Opened [] acts) : (start now acts).Ready :=
  ⟨[], h, nofun⟩

theorem Ready.step (h : y.Ready) (hs : Step s now actor y y') : y'.Ready := by
  obtain ⟨names, hopened, hnames⟩ := h
  cases hs with
  | accept => exact ⟨names, hopened, by simpa using hnames⟩
  | turn => exact ⟨names, hopened, by simpa using hnames⟩
  | @connect y name todo htodo =>
    rw [htodo] at hopened
    refine ⟨name :: names, hopened.2, fun other ho => ?_⟩
    by_cases he : other = name
    · exact ⟨y.links.length, by simp [he], by simp⟩
    · obtain ⟨i, hi, hlt⟩ := hnames other ((List.mem_cons.mp ho).resolve_left he)
      exact ⟨i, by simp [he, hi], by simp; omega⟩
  | @act y name act todo i l received l' htodo hholds hl hd =>
    rw [htodo] at hopened
    refine ⟨name :: names, hopened.2, fun other ho => ?_⟩
    rcases List.mem_cons.mp ho with rfl | ho
    · exact ⟨i, hholds, by simpa using (List.getElem?_eq_some_iff.mp hl).1⟩
    · simpa using hnames other ho

theorem Ready.of_reaches (h : y.Ready) (hr : Relation.ReflTransGen (Goes s) y y') : y'.Ready := by
  induction hr with
  | refl => exact h
  | tail _ hstep ih =>
    obtain ⟨_, _, _, hstep⟩ := hstep
    exact ih.step hstep

theorem Ready.exists_link {act : Act} {todo : List (String × Act)} (h : y.Ready)
    (htodo : y.todo = (name, act) :: todo) (hact : act ≠ .connect) :
    ∃ i l, y.holds name = some i ∧ y.links[i]? = some l := by
  obtain ⟨names, hopened, hnames⟩ := h
  rw [htodo] at hopened
  obtain ⟨i, hholds, hlt⟩ := hnames name (hopened.1.resolve_left hact)
  exact ⟨i, _, hholds, List.getElem?_eq_getElem hlt⟩

def Separate (holds : String → Option Nat) : Prop :=
  ∀ name other i, holds name = some i → holds other = some i → name = other

variable {holds : String → Option Nat} {links : List Link} {P P' : String → Link → Prop}

theorem Separate.connect (h : Separate holds)
    (hlinks : ∀ other i, holds other = some i → ∃ l, links[i]? = some l ∧ P other l)
    (name : String) :
    Separate fun other => if other = name then some links.length else holds other := by
  have hnew (other : String) : holds other ≠ some links.length := fun ho => by
    obtain ⟨_, hl, -⟩ := hlinks other _ ho
    exact (List.getElem?_eq_some_iff.mp hl).1.false
  intro a b i ha hb
  by_cases hna : a = name <;> by_cases hnb : b = name
  · rw [hna, hnb]
  · simp only [if_pos hna, if_neg hnb] at ha hb
    exact absurd (ha ▸ hb) (hnew b)
  · simp only [if_neg hna, if_pos hnb] at ha hb
    exact absurd (hb ▸ ha) (hnew a)
  · simp only [if_neg hna, if_neg hnb] at ha hb
    exact h a b i ha hb

theorem forall_holds_append {l : Link} (hl : P' name l)
    (hP : ∀ other l, other ≠ name → P other l → P' other l)
    (hlinks : ∀ other i, holds other = some i → ∃ l, links[i]? = some l ∧ P other l)
    (other : String) (i : Nat)
    (hi : (if other = name then some links.length else holds other) = some i) :
    ∃ l', (links ++ [l])[i]? = some l' ∧ P' other l' := by
  by_cases he : other = name
  · subst he
    obtain rfl : links.length = i := by simpa using hi
    exact ⟨l, by simp, hl⟩
  · rw [if_neg he] at hi
    obtain ⟨l', hl', hp⟩ := hlinks other i hi
    have hlt := (List.getElem?_eq_some_iff.mp hl').1
    exact ⟨l', by rw [List.getElem?_append_left hlt, hl'], hP other l' he hp⟩

theorem Separate.forall_holds_set {l : Link} {i : Nat} (h : Separate holds) (hl : P' name l)
    (hP : ∀ other l, other ≠ name → P other l → P' other l)
    (hlinks : ∀ other i, holds other = some i → ∃ l, links[i]? = some l ∧ P other l)
    (hi : holds name = some i) (other : String) (j : Nat) (hj : holds other = some j) :
    ∃ l', (links.set i l)[j]? = some l' ∧ P' other l' := by
  obtain ⟨l', hl', hp⟩ := hlinks other j hj
  by_cases he : other = name
  · subst he
    obtain rfl : i = j := by simpa [hi] using hj
    exact ⟨l, by simp [(List.getElem?_eq_some_iff.mp hl').1], hl⟩
  · have hij : i ≠ j := fun hij => he (h other name j hj (hij ▸ hi))
    exact ⟨l', by rw [List.getElem?_set_ne hij, hl'], hP other l' he hp⟩

/-- Who may keep a client waiting. -/
def Concerns (y : Service) (client : String) : Actor → Prop
  | .acceptor | .client => True
  | .task i => y.holds client = some i

/-- At once, or when the task of that client goes on by itself. -/
def Soon (s : Settings) (y : Service) (client : String) (time : Moment) : Prop :=
  time = y.clock ∨ ∃ i l, y.holds client = some i ∧ y.links[i]? = some l ∧ time = l.alarm s

/-- The next act goes through, or the server or the task of that client goes on. -/
theorem Ready.exists_step {act : Act} {todo : List (String × Act)} (h : y.Ready)
    (htodo : y.todo = (name, act) :: todo) :
    ∃ time actor y', y.clock ≤ time ∧ y.Soon s name time ∧ y.Concerns name actor ∧
      Step s time actor y y' := by
  by_cases hconnect : act = .connect
  · subst hconnect
    exact ⟨_, .client, _, le_refl y.clock, .inl rfl, trivial, .connect htodo⟩
  obtain ⟨i, l, hholds, hl⟩ := h.exists_link htodo hconnect
  by_cases hreceive : act = .receive
  · subst hreceive
    by_cases hi : i < y.accepted
    · rcases Link.exists_turn_or_receive s y.clock l with
        ⟨time, l', hle, hsoon, ht⟩ | ⟨_, l', hd⟩
      · exact ⟨time, .task i, _, hle, hsoon.imp_right fun heq => ⟨i, l, hholds, hl, heq⟩, hholds,
          .turn hi hl ht⟩
      · exact ⟨_, .client, _, le_refl y.clock, .inl rfl, trivial, .act htodo hholds hl hd⟩
    · have hlt : y.accepted < y.links.length :=
        Nat.lt_of_le_of_lt (Nat.not_lt.mp hi) (List.getElem?_eq_some_iff.mp hl).1
      exact ⟨_, .acceptor, _, le_refl y.clock, .inl rfl, trivial,
        .accept (List.getElem?_eq_getElem hlt)⟩
  · obtain ⟨l', hd⟩ := Link.exists_does (l := l) hconnect hreceive
    exact ⟨_, .client, _, le_refl y.clock, .inl rfl, trivial, .act htodo hholds hl hd⟩

end Service

end ScgiStub
