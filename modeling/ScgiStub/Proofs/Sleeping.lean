import ScgiStub.Proofs.Chunking
import ScgiStub.Proofs.Words
import ScgiStub.Traffic

/-! # Sleeping

A span of time is kept in two words, one for its seconds and one for the nanoseconds beside
them, and so is the time that a clock shows. A span is multiplied and added to a clock word
by word, with a carry. This is given up exactly if the nanoseconds in all do not fit, and
comes to their exact number otherwise.
-/

namespace ScgiStub

/-- Arithmetic that nothing checks has left its word. -/
inductive Overflow where
  | overflow
  deriving DecidableEq, Repr

/-- A span of time in two words. -/
@[ext]
structure Span where
  seconds : UInt64
  nanoseconds : UInt32
  nanoseconds_lt : nanoseconds.toNat < 10 ^ 9
  deriving DecidableEq, Repr

/-- What a clock shows, in two words; it may show a time before its start. -/
@[ext]
structure Instant where
  seconds : Int64
  nanoseconds : UInt32
  nanoseconds_lt : nanoseconds.toNat < 10 ^ 9
  deriving DecidableEq, Repr

/-! ## Spans -/

namespace Span

variable {d : Span} {n : Nat}

def nanos (d : Span) : Nat :=
  d.seconds.toNat * 10 ^ 9 + d.nanoseconds.toNat

def duration (d : Span) : Duration :=
  ⟨d.nanos⟩

theorem toNat_remainder (w : UInt64) : (w % 1000000000).toUInt32.toNat = w.toNat % 10 ^ 9 := by
  have hmod : (w % 1000000000).toNat = w.toNat % 10 ^ 9 := UInt64.toNat_mod ..
  rw [UInt64.toNat_toUInt32, hmod]
  omega

def carry? (seconds nanoseconds : UInt64) : Option Span :=
  (Word.plus? seconds (nanoseconds / 1000000000)).map fun seconds =>
    ⟨seconds, (nanoseconds % 1000000000).toUInt32, by
      rw [toNat_remainder]
      exact Nat.mod_lt _ (by decide)⟩

/-- The span so many times over, the seconds and the nanoseconds each for themselves. -/
def times? (d : Span) (n : UInt32) : Except Overflow (Option Span) :=
  if d.nanoseconds.toNat * n.toNat < UInt64.size then
    .ok ((Word.times? d.seconds n.toUInt64).bind fun seconds =>
      carry? seconds (d.nanoseconds.toUInt64 * n.toUInt64))
  else .error .overflow

theorem nanos_eq_iff : d.nanos = n ↔
    d.seconds.toNat = n / 10 ^ 9 ∧ d.nanoseconds.toNat = n % 10 ^ 9 := by
  have hlt := d.nanoseconds_lt
  unfold nanos
  omega

theorem exists_nanos_eq_iff : (∃ d : Span, d.nanos = n) ↔ n < 2 ^ 64 * 10 ^ 9 := by
  constructor
  · rintro ⟨d, rfl⟩
    have hlt := d.nanoseconds_lt
    have hs := d.seconds.toNat_lt
    unfold nanos
    omega
  · intro h
    have hs : (UInt64.ofNat (n / 10 ^ 9)).toNat = n / 10 ^ 9 :=
      UInt64.toNat_ofNat_of_lt' (by unfold UInt64.size; omega)
    have hn : (UInt32.ofNat (n % 10 ^ 9)).toNat = n % 10 ^ 9 :=
      UInt32.toNat_ofNat_of_lt' (by unfold UInt32.size; omega)
    exact ⟨⟨_, _, hn.trans_lt (Nat.mod_lt _ (by decide))⟩, nanos_eq_iff.mpr ⟨hs, hn⟩⟩

theorem carry?_eq_some_iff {seconds nanoseconds : UInt64} : carry? seconds nanoseconds = some d ↔
    d.nanos = seconds.toNat * 10 ^ 9 + nanoseconds.toNat := by
  have hdiv : (nanoseconds / 1000000000).toNat = nanoseconds.toNat / 10 ^ 9 := UInt64.toNat_div ..
  simp only [carry?, Option.map_eq_some_iff, Word.plus?_eq_some_iff, hdiv]
  constructor
  · rintro ⟨w, hw, rfl⟩
    rw [nanos, toNat_remainder, hw]
    omega
  · intro h
    have hlt := d.nanoseconds_lt
    unfold nanos at h
    refine ⟨d.seconds, by omega, Span.ext rfl (UInt32.toNat_inj.mp ?_)⟩
    rw [toNat_remainder]
    omega

/-- The product is exact, and nothing that is not checked overflows. -/
theorem exists_times?_eq_ok (d : Span) (n : UInt32) :
    ∃ total?, d.times? n = .ok total? ∧
      ∀ total, total? = some total ↔ total.nanos = d.nanos * n.toNat := by
  have hfits : d.nanoseconds.toNat * n.toNat < UInt64.size :=
    calc d.nanoseconds.toNat * n.toNat
      _ ≤ 10 ^ 9 * UInt32.size := Nat.mul_le_mul d.nanoseconds_lt.le n.toNat_lt_size.le
      _ < UInt64.size := by decide
  have hproduct : (d.nanoseconds.toUInt64 * n.toUInt64).toNat = d.nanoseconds.toNat * n.toNat := by
    rw [UInt64.toNat_mul, UInt32.toNat_toUInt64, UInt32.toNat_toUInt64]
    exact Nat.mod_eq_of_lt hfits
  have hnanos : d.nanos * n.toNat =
      d.seconds.toNat * n.toNat * 10 ^ 9 + d.nanoseconds.toNat * n.toNat := by
    rw [nanos, Nat.add_mul, Nat.mul_right_comm]
  refine ⟨_, if_pos hfits, fun total => ?_⟩
  simp only [Option.bind_eq_some_iff, Word.times?_eq_some_iff, carry?_eq_some_iff, hproduct,
    UInt32.toNat_toUInt64, hnanos]
  constructor
  · rintro ⟨w, hw, htotal⟩
    rw [htotal, hw]
  · intro htotal
    -- The seconds alone fit, because the seconds of the product, carry and all, do.
    have hle : d.seconds.toNat * n.toNat ≤ total.seconds.toNat := by
      have hlt := total.nanoseconds_lt
      unfold nanos at htotal
      omega
    have hw := UInt64.toNat_ofNat_of_lt' (hle.trans_lt total.seconds.toNat_lt_size)
    exact ⟨_, hw, by rw [htotal, hw]⟩

end Span

/-! ## Clocks -/

namespace Instant

variable {t : Instant} {i : Int}

def nanos (t : Instant) : Int :=
  t.seconds.toInt * 10 ^ 9 + t.nanoseconds.toNat

def moment (t : Instant) : Moment :=
  ⟨t.nanos⟩

theorem toNat_sum (t : Instant) (d : Span) :
    (t.nanoseconds + d.nanoseconds).toNat = t.nanoseconds.toNat + d.nanoseconds.toNat := by
  have ht := t.nanoseconds_lt
  have hd := d.nanoseconds_lt
  rw [UInt32.toNat_add]
  omega

theorem toNat_rest {nanoseconds : UInt32} (h : ¬ nanoseconds.toNat < 10 ^ 9) :
    (nanoseconds - 1000000000).toNat = nanoseconds.toNat - 10 ^ 9 :=
  UInt32.toNat_sub_of_le _ _ (UInt32.le_iff_toNat_le.mpr (not_lt.mp h))

/-- A second is taken out of the nanoseconds if they hold one. -/
def carry? (seconds : Int64) (nanoseconds : UInt32) (h : nanoseconds.toNat < 2 * 10 ^ 9) :
    Option Instant :=
  if hlt : nanoseconds.toNat < 10 ^ 9 then some ⟨seconds, nanoseconds, hlt⟩
  else
    (Word.ofInt? (seconds.toInt + 1)).map fun seconds =>
      ⟨seconds, nanoseconds - 1000000000, by
        rw [toNat_rest hlt]
        omega⟩

def plus? (t : Instant) (d : Span) : Except Overflow (Option Instant) :=
  match Word.ofInt? (t.seconds.toInt + d.seconds.toNat) with
  | none => .ok none
  | some seconds =>
    if t.nanoseconds.toNat + d.nanoseconds.toNat < UInt32.size then
      .ok (carry? seconds (t.nanoseconds + d.nanoseconds) (by
        rw [toNat_sum, Nat.two_mul]
        exact Nat.add_lt_add t.nanoseconds_lt d.nanoseconds_lt))
    else .error .overflow

theorem nanos_eq_iff : t.nanos = i ↔
    t.seconds.toInt = i / 10 ^ 9 ∧ t.nanoseconds.toNat = i % 10 ^ 9 := by
  have hlt := t.nanoseconds_lt
  unfold nanos
  omega

theorem exists_nanos_eq_iff : (∃ t : Instant, t.nanos = i) ↔
    -2 ^ 63 * 10 ^ 9 ≤ i ∧ i < 2 ^ 63 * 10 ^ 9 := by
  constructor
  · rintro ⟨t, rfl⟩
    have hlt := t.nanoseconds_lt
    have hlow := t.seconds.le_toInt
    have hhigh := t.seconds.toInt_lt
    unfold nanos
    omega
  · intro h
    have hs : (Int64.ofInt (i / 10 ^ 9)).toInt = i / 10 ^ 9 :=
      Int64.toInt_ofInt_of_le (by omega) (by omega)
    have hn : (UInt32.ofNat (i % 10 ^ 9).toNat).toNat = (i % 10 ^ 9).toNat :=
      UInt32.toNat_ofNat_of_lt' (by unfold UInt32.size; omega)
    refine ⟨⟨_, _, hn.trans_lt (by omega)⟩, nanos_eq_iff.mpr ⟨hs, ?_⟩⟩
    rw [hn]
    omega

theorem carry?_eq_some_iff {seconds : Int64} {nanoseconds : UInt32}
    {h : nanoseconds.toNat < 2 * 10 ^ 9} : carry? seconds nanoseconds h = some t ↔
      t.nanos = seconds.toInt * 10 ^ 9 + nanoseconds.toNat := by
  have hlt := t.nanoseconds_lt
  unfold carry?
  split
  · next hless =>
    rw [Option.some_inj]
    constructor
    · rintro rfl
      rfl
    · intro ht
      unfold nanos at ht
      have hs : seconds = t.seconds := Int64.toInt_inj.mp (by omega)
      have hn : nanoseconds = t.nanoseconds := UInt32.toNat_inj.mp (by omega)
      exact Instant.ext hs hn
  · next hge =>
    simp only [Option.map_eq_some_iff, Word.ofInt?_eq_some_iff]
    constructor
    · rintro ⟨w, hw, rfl⟩
      rw [nanos, toNat_rest hge, hw]
      omega
    · intro ht
      unfold nanos at ht
      refine ⟨t.seconds, by omega, Instant.ext rfl (UInt32.toNat_inj.mp ?_)⟩
      rw [toNat_rest hge]
      omega

/-- The sum is exact, and nothing that is not checked overflows. -/
theorem exists_plus?_eq_ok (t : Instant) (d : Span) :
    ∃ later?, t.plus? d = .ok later? ∧
      ∀ later, later? = some later ↔ later.nanos = t.nanos + d.nanos := by
  have ht := t.nanoseconds_lt
  have hd := d.nanoseconds_lt
  have hfits : t.nanoseconds.toNat + d.nanoseconds.toNat < UInt32.size := by
    unfold UInt32.size
    omega
  unfold plus?
  cases hseconds : Word.ofInt? (t.seconds.toInt + d.seconds.toNat) with
  | some seconds =>
    refine ⟨_, if_pos hfits, fun later => ?_⟩
    rw [carry?_eq_some_iff, Word.ofInt?_eq_some_iff.mp hseconds, toNat_sum]
    unfold nanos Span.nanos
    omega
  | none =>
    refine ⟨none, rfl, fun later => ⟨nofun, fun hlater => ?_⟩⟩
    have hlow := t.seconds.le_toInt
    have hlt := later.nanoseconds_lt
    have hhigh := later.seconds.toInt_lt
    have hw : (Int64.ofInt (t.seconds.toInt + d.seconds.toNat)).toInt =
        t.seconds.toInt + d.seconds.toNat := by
      unfold nanos Span.nanos at hlater
      exact Int64.toInt_ofInt_of_le (by omega) (by omega)
    rw [Word.ofInt?_eq_some_iff.mpr hw] at hseconds
    cases hseconds

end Instant

/-! ## Sleeps -/

/-- So many nanoseconds are a span, and are over before a clock that shows `shown` ends. -/
def Fits (total : Nat) (shown : Int) : Prop :=
  total < 2 ^ 64 * 10 ^ 9 ∧ shown + total < 2 ^ 63 * 10 ^ 9

instance (total : Nat) (shown : Int) : Decidable (Fits total shown) :=
  inferInstanceAs (Decidable (_ ∧ _))

theorem Fits.anti {total less : Nat} {shown : Int} (h : Fits total shown) (hle : less ≤ total) :
    Fits less shown := by
  unfold Fits at *
  omega

namespace Span

def sleep? (unit : Span) (clock : Instant) (units : UInt32) : Except Overflow (Option Span) := do
  match ← unit.times? units with
  | none => return none
  | some total => return (← clock.plus? total).map fun _ => total

theorem exists_sleep?_eq_ok (unit : Span) (clock : Instant) (units : UInt32) :
    ∃ time?, unit.sleep? clock units = .ok time? ∧ ∀ time, time? = some time ↔
      time.nanos = unit.nanos * units.toNat ∧ Fits time.nanos clock.nanos := by
  obtain ⟨total?, htimes, htotal⟩ := unit.exists_times?_eq_ok units
  cases total? with
  | none =>
    refine ⟨none, by rw [sleep?, htimes]; rfl, fun time => ⟨nofun, fun h => ?_⟩⟩
    exact (htotal time).mpr h.1
  | some total =>
    obtain ⟨later?, hplus, hlater⟩ := clock.exists_plus?_eq_ok total
    refine ⟨later?.map fun _ => total, ?_, fun time => ?_⟩
    · simp only [sleep?, htimes, hplus, bind, pure, Except.bind, Except.pure]
    have hsum : (∃ later, later? = some later) ↔ clock.nanos + total.nanos < 2 ^ 63 * 10 ^ 9 := by
      have hlow := (Instant.exists_nanos_eq_iff.mp ⟨clock, rfl⟩).1
      simp only [hlater, Instant.exists_nanos_eq_iff]
      omega
    rw [Option.map_eq_some_iff, ← htotal, Option.some_inj]
    constructor
    · rintro ⟨later, hl, rfl⟩
      exact ⟨rfl, exists_nanos_eq_iff.mp ⟨total, rfl⟩, hsum.mp ⟨later, hl⟩⟩
    · rintro ⟨rfl, -, hfits⟩
      obtain ⟨later, hl⟩ := hsum.mpr hfits
      exact ⟨later, hl, rfl⟩

theorem isSome_iff_fits {time? : Option Span} {total : Nat} {shown : Int}
    (h : ∀ time, time? = some time ↔ time.nanos = total ∧ Fits time.nanos shown) :
    time?.isSome ↔ Fits total shown := by
  simp only [Option.isSome_iff_exists, h]
  constructor
  · rintro ⟨time, rfl, hfits⟩
    exact hfits
  · intro hfits
    obtain ⟨time, rfl⟩ := exists_nanos_eq_iff.mpr hfits.1
    exact ⟨time, rfl, hfits⟩

end Span

namespace Canned

variable {now : Moment} {unit time : Duration} {units : Nat} {s : Settings} {request : Request}

theorem sleepTime?_eq_some_iff : sleepTime? now unit units = some time ↔
    time.nanoseconds = unit.nanoseconds * units ∧ Fits time.nanoseconds now.nanoseconds := by
  have hspan : Duration.bound = 2 ^ 64 * 10 ^ 9 := by decide
  have hclock : (clockBound : Int) * Duration.perSecond = 2 ^ 63 * 10 ^ 9 := by decide
  simp only [sleepTime?, Duration.times?, hspan, hclock, Option.filter_eq_some_iff,
    Option.ite_none_right_eq_some, Option.some_inj, decide_eq_true_eq, Fits]
  constructor
  · rintro ⟨⟨hlt, rfl⟩, hsum⟩
    exact ⟨rfl, hlt, hsum⟩
  · rintro ⟨htime, hlt, hsum⟩
    exact ⟨⟨htime ▸ hlt, congrArg Duration.mk htime.symm⟩, hsum⟩

theorem sleepTime?_eq_ite : sleepTime? now unit units =
    if Fits (unit.nanoseconds * units) now.nanoseconds then some ⟨unit.nanoseconds * units⟩
    else none := by
  ext time
  rw [sleepTime?_eq_some_iff, Option.ite_none_right_eq_some, Option.some_inj]
  constructor
  · rintro ⟨htime, hfits⟩
    exact ⟨htime ▸ hfits, congrArg Duration.mk htime.symm⟩
  · rintro ⟨hfits, rfl⟩
    exact ⟨rfl, hfits⟩

theorem sleepTime?_eq_map {time? : Option Span} {unit : Span} {clock : Instant}
    (h : ∀ time, time? = some time ↔
      time.nanos = unit.nanos * units ∧ Fits time.nanos clock.nanos) :
    sleepTime? clock.moment unit.duration units = time?.map Span.duration := by
  ext time
  rw [sleepTime?_eq_some_iff, Option.map_eq_some_iff]
  simp only [h]
  constructor
  · rintro ⟨htime, hfits⟩
    obtain ⟨span, hspan⟩ := Span.exists_nanos_eq_iff.mpr hfits.1
    exact ⟨span, ⟨hspan.trans htime, hspan ▸ hfits⟩, congrArg Duration.mk hspan⟩
  · rintro ⟨span, hspan, rfl⟩
    exact hspan

theorem perform_sleep : (sleep units).perform now unit request =
    if Fits (unit.nanoseconds * units) now.nanoseconds then
      .ok { reply := .page s!"slept {units}\n", wait := ⟨unit.nanoseconds * units⟩ }
    else .error (.sleepOutOfRange units unit) := by
  rw [perform, sleepTime?_eq_ite]
  by_cases hfits : Fits (unit.nanoseconds * units) now.nanoseconds
  · simp only [if_pos hfits]
  · simp only [if_neg hfits]

theorem handle_of_sleep (h : ofPath request.path? = sleep units) : handle s now request =
    if Fits (s.sleepUnit.nanoseconds * units) now.nanoseconds then
      { reply := .page s!"slept {units}\n", wait := ⟨s.sleepUnit.nanoseconds * units⟩ }
    else { reply := (Obstacle.sleepOutOfRange units s.sleepUnit).reply } := by
  rw [handle, h, perform_sleep]
  by_cases hfits : Fits (s.sleepUnit.nanoseconds * units) now.nanoseconds
  · simp only [if_pos hfits]
  · simp only [if_neg hfits]

theorem answer_eq_reply_iff (h : ofPath request.path? = sleep units) :
    answer s now request = (Obstacle.sleepOutOfRange units s.sleepUnit).reply ↔
      ¬ Fits (s.sleepUnit.nanoseconds * units) now.nanoseconds := by
  rw [answer, handle_of_sleep h]
  split
  · next hfits => simp [hfits, Reply.page, Obstacle.reply, Reply.line]
  · next hfits => simp [hfits]

theorem closing_of_sleep {c : Client} (hstage : c.stage = .accepted request)
    (h : ofPath request.path? = sleep units) : (c.closing s).nanoseconds =
      if Fits (s.sleepUnit.nanoseconds * units) c.since.nanoseconds then
        c.since.nanoseconds + s.sleepUnit.nanoseconds * units
      else c.since.nanoseconds := by
  rw [Client.closing, hstage, Connection.Stage.deferred?, handle_of_sleep h]
  by_cases hfits : Fits (s.sleepUnit.nanoseconds * units) c.since.nanoseconds
  · simp only [if_pos hfits]
    rfl
  · simp only [if_neg hfits]
    exact Int.add_zero _

theorem wire_sleepOutOfRange (units : Nat) (unit : Duration) :
    (Obstacle.sleepOutOfRange units unit).reply.wire =
      Utf8.encode s!"42 sleep of {units} units of {unit.text} is out of range\r\n" := by
  have hcode : "42 sleep of " = toString Status.cgiError.code ++ " " ++ "sleep of " := by decide
  have hend : " is out of range\r\n" = " is out of range" ++ "\r\n" := by decide
  change Utf8.encode (toString Status.cgiError.code ++ " " ++ ("sleep of " ++ toString units ++
    " units of " ++ unit.text ++ " is out of range") ++ "\r\n") ++ [] = Utf8.encode
      ("42 sleep of " ++ toString units ++ " units of " ++ unit.text ++ " is out of range\r\n")
  rw [List.append_nil, hcode, hend]
  simp only [String.append_assoc]

end Canned

/-- Reckoned in words, with carries, a sleep is given up exactly if its nanoseconds are no span
or are not over before the clock ends, and nothing that is not checked overflows. Otherwise the
reply waits for their exact number, and so long the connection stays open. A sleep that is given
up is answered at once, with an error status and no body, and at the same time so is a longer
one. -/
theorem Canned.sleep_iff_fits (unit : Span) (units : UInt32) (clock : Instant) :
    let total := (unit.seconds.toNat * 10 ^ 9 + unit.nanoseconds.toNat) * units.toNat
    let slept : Deferred :=
      { reply := .status .success "text/plain" (Utf8.encode s!"slept {units.toNat}\n")
        wait := ⟨total⟩ }
    (∃ time?, unit.sleep? clock units = .ok time? ∧
      (time?.isSome ↔ Fits total clock.nanos) ∧
      (∀ time, time? = some time → time.nanos = total) ∧
      sleepTime? clock.moment unit.duration units.toNat = time?.map Span.duration) ∧
    (∀ (s : Settings) (request : Request), s.sleepUnit = unit.duration →
      let obstacle := Obstacle.sleepOutOfRange units.toNat s.sleepUnit
      (sleep units.toNat).perform clock.moment s.sleepUnit request =
        (if Fits total clock.nanos then .ok slept else .error obstacle) ∧
      obstacle.reply.wire = Utf8.encode
        s!"42 sleep of {units.toNat} units of {s.sleepUnit.text} is out of range\r\n" ∧
      (ofPath request.path? = sleep units.toNat →
        handle s clock.moment request =
          (if Fits total clock.nanos then slept else { reply := obstacle.reply }) ∧
        ∀ c : Client, c.stage = .accepted request → c.since = clock.moment →
          (c.closing s).nanoseconds =
            if Fits total clock.nanos then clock.nanos + total else clock.nanos)) ∧
    ∀ (s : Settings) (five fifteen : Request),
      five.path? = some "/test_sleep_5" → fifteen.path? = some "/test_sleep_15" →
      answer s clock.moment five = (Obstacle.sleepOutOfRange 5 s.sleepUnit).reply →
      answer s clock.moment fifteen = (Obstacle.sleepOutOfRange 15 s.sleepUnit).reply := by
  intro total slept
  refine ⟨?_, fun s request hs => ?_, fun s five fifteen h5 h15 h => ?_⟩
  · obtain ⟨time?, hsleep, htime⟩ := unit.exists_sleep?_eq_ok clock units
    exact ⟨time?, hsleep, Span.isSome_iff_fits htime, fun time ht => ((htime time).mp ht).1,
      sleepTime?_eq_map htime⟩
  · intro obstacle
    have htotal : s.sleepUnit.nanoseconds * units.toNat = total := by
      rw [hs]
      rfl
    refine ⟨?_, wire_sleepOutOfRange units.toNat s.sleepUnit, fun hpath => ⟨?_, ?_⟩⟩
    · rw [perform_sleep, htotal]
      rfl
    · rw [handle_of_sleep hpath, htotal]
      rfl
    · intro c hstage hsince
      rw [closing_of_sleep hstage hpath, hsince, ← htotal]
      rfl
  · have hfive : ofPath five.path? = sleep 5 := by rw [h5]; rfl
    have hfifteen : ofPath fifteen.path? = sleep 15 := by rw [h15]; rfl
    rw [answer_eq_reply_iff hfifteen]
    intro hfits
    exact (answer_eq_reply_iff hfive).mp h (hfits.anti (by omega))

theorem Canned.sleep_iff_fits_carry :
    let unit : Span := ⟨1229782938247303441, 66666667, by decide⟩
    let s : Settings := { sleepUnit := unit.duration }
    let request (path : String) : Request := { env := .ofPairs [("PATH_INFO", path)] }
    let start : Instant := ⟨0, 0, by decide⟩
    let early : Instant := ⟨-1, 999999999, by decide⟩
    let late : Instant := ⟨9223372036854775807, 0, by decide⟩
    unit.seconds.toNat * 15 < UInt64.size ∧
      unit.sleep? early 15 = .ok none ∧
      handle s early.moment (request "/test_sleep_5") =
        { reply := .status .success "text/plain" (Utf8.encode "slept 5\n")
          wait := ⟨6148914691236517205333333335⟩ } ∧
      (answer s start.moment (request "/test_sleep_15")).wire = Utf8.encode
        "42 sleep of 15 units of 1229782938247303441.066666667s is out of range\r\n" ∧
      answer s late.moment (request "/test_sleep_15") =
        (Obstacle.sleepOutOfRange 15 s.sleepUnit).reply := by
  intro unit s request start early late
  obtain ⟨⟨time?, hsleep, hsome, -⟩, -⟩ := sleep_iff_fits unit 15 early
  obtain ⟨-, hearly, -⟩ := sleep_iff_fits unit 5 early
  obtain ⟨-, hstart, -⟩ := sleep_iff_fits unit 15 start
  obtain ⟨-, hlate, hlonger⟩ := sleep_iff_fits unit 5 late
  have hnone : ¬ time?.isSome := fun h => absurd (hsome.mp h).1 (by decide)
  have hslept := ((hearly s (request "/test_sleep_5") rfl).2.2 rfl).1
  obtain ⟨-, hwire, hgiven⟩ := hstart s (request "/test_sleep_15") rfl
  have hfive := ((hlate s (request "/test_sleep_5") rfl).2.2 rfl).1
  refine ⟨by decide, ?_, ?_, ?_, hlonger s (request "/test_sleep_5") _ rfl rfl ?_⟩
  · rw [hsleep, Option.not_isSome_iff_eq_none.mp hnone]
  · rw [hslept]
    decide
  · rw [answer, (hgiven rfl).1, if_neg (by decide)]
    exact hwire.trans (by decide +kernel)
  · rw [answer, hfive, if_neg (by decide)]
    rfl

end ScgiStub
