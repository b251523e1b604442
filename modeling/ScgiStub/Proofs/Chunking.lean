import ScgiStub.Connection
import ScgiStub.Proofs.Feeding
import ScgiStub.Proofs.Phases

/-! # Requests in pieces

A connection hands the bytes of a client over in pieces of any size. What becomes
of the request, and what is written back, depends on the bytes alone.
-/

namespace ScgiStub

variable {s : Settings} {now now' : Moment}

/-- The clock can tell the end of a sleep at both times or at neither, whatever
sleeping path is asked for. -/
def Settings.SleepsAlike (s : Settings) (now now' : Moment) : Prop :=
  ∀ path? units, Canned.ofPath path? = .sleep units →
    (Canned.sleepTime? now s.sleepUnit units).isSome =
      (Canned.sleepTime? now' s.sleepUnit units).isSome

theorem Canned.sleepTime?_congr {unit : Duration} {units : Nat}
    (h : (sleepTime? now unit units).isSome = (sleepTime? now' unit units).isSome) :
    sleepTime? now unit units = sleepTime? now' unit units := by
  have htotal {now total} (htime : sleepTime? now unit units = some total) :
      unit.times? units = some total :=
    (Option.filter_eq_some_iff.mp htime).1
  cases htime : sleepTime? now unit units with
  | none =>
    rw [htime, Option.isSome_none] at h
    exact (Option.isNone_iff_eq_none.mp (Option.isSome_eq_false_iff.mp h.symm)).symm
  | some total =>
    cases htime' : sleepTime? now' unit units with
    | none => simp [htime, htime'] at h
    | some total' => exact (htotal htime).symm.trans (htotal htime')

theorem handle_congr (h : s.SleepsAlike now now') (request : Request) :
    handle s now request = handle s now' request := by
  unfold handle
  cases hp : Canned.ofPath request.path? with
  | sleep units => rw [Canned.perform, Canned.perform, Canned.sleepTime?_congr (h _ _ hp)]
  | _ => rfl

namespace Connection

namespace Stage

variable {stage : Stage} {r : Reader} {a b : Bytes}

/-- What the server has written to a client once it has sent everything. -/
def written (s : Settings) (now : Moment) (stage : Stage) : Bytes :=
  ((stage.reply? s now).map Reply.wire).getD []

theorem written_congr (h : s.SleepsAlike now now') :
    stage.written s now = stage.written s now' := by
  cases stage with
  | accepted request => simp only [written, reply?, deferred?, handle_congr h]
  | _ => rfl

theorem ofOutcome_headersDone (h : r.phase = .body) (hc : s.check r.request.env = .ok ()) :
    ofOutcome s (.ok .headersDone, r) = ofOutcome s (r.feed []) := by
  simp only [ofOutcome, hc]
  rcases hf : r.feed [] with ⟨_ | progress, r'⟩
  · rfl
  · cases progress with
    | headersDone => exact (Reader.feed_ne_headersDone h hf).elim
    | _ => rfl

theorem step_ofOutcome_body (h : r.phase = .body) :
    step s (ofOutcome s (r.feed a)) b = ofOutcome s (r.feed (a ++ b)) := by
  rw [Reader.feed_append]
  rcases hf : r.feed a with ⟨_ | progress, r'⟩
  · rfl
  · cases progress with
    | headersDone => exact (Reader.feed_ne_headersDone h hf).elim
    | _ => rfl

theorem step_ofOutcome : step s (ofOutcome s (r.feed a)) b = ofOutcome s (r.feed (a ++ b)) := by
  rw [Reader.feed_append]
  rcases hf : r.feed a with ⟨_ | progress, r'⟩
  · rfl
  · cases progress with
    | headersDone =>
      have hp := Reader.phase_of_headersDone hf
      change step s (ofOutcome s (.ok .headersDone, r')) b =
        ofOutcome s (.ok .headersDone, r'.push b)
      cases hc : s.check r'.request.env with
      | error refusal => simp only [ofOutcome, Reader.request_push, hc]; rfl
      | ok =>
        rw [ofOutcome_headersDone hp hc, ofOutcome_headersDone (r := r'.push b) hp hc,
          Reader.feed_push, List.append_nil, step_ofOutcome_body hp, List.nil_append]
    | _ => rfl

theorem step_step : step s (step s stage a) b = step s stage (a ++ b) := by
  cases stage with
  | waiting r => exact step_ofOutcome
  | _ => rfl

theorem step_start_nil : step s (start s) [] = start s := rfl

theorem foldl_step (chunks : List Bytes) :
    chunks.foldl (step s) (step s stage a) = step s stage (a ++ chunks.flatten) := by
  induction chunks generalizing a with
  | nil => simp
  | cons c chunks ih => rw [List.foldl_cons, step_step, ih, List.flatten_cons, List.append_assoc]

/-- A reading in pieces is the reading of all the bytes at once. -/
theorem run_eq_step (chunks : List Bytes) : run s chunks = step s (start s) chunks.flatten := by
  rw [run, ← step_start_nil, foldl_step, List.nil_append, step_start_nil]

end Stage

theorem flatten_cut {size : Nat} (h : 0 < size) (bs : Bytes) : (cut size bs).flatten = bs := by
  fun_induction cut size bs with
  | case1 => exact absurd h (Nat.lt_irrefl 0)
  | case2 => rfl
  | case3 n b bs ih => rw [List.flatten_cons, ih h, List.cons_append, List.take_append_drop]

theorem output_eq_written (sent : Bytes) :
    output s now sent = (Stage.run s (cut s.bufferSize sent)).written s now := by
  unfold output Stage.written
  rw [reply?]
  cases (Stage.run s (cut s.bufferSize sent)).reply? s now <;> rfl

/-- However the bytes of a client are cut, the reading ends in the same way: with
the same request, with the same rejection, or with the same request still
incomplete. So the bytes alone decide what is written back. -/
theorem reading_eq_of_flatten_eq {chunks chunks' : List Bytes}
    (h : chunks.flatten = chunks'.flatten) :
    Stage.run s chunks = Stage.run s chunks' ∧
      (∀ now now', s.SleepsAlike now now' →
        (Stage.run s chunks).written s now = (Stage.run s chunks').written s now') ∧
      (∀ now, 0 < s.bufferSize →
        (Stage.run s chunks).written s now = output s now chunks.flatten) := by
  have hrun : Stage.run s chunks = Stage.run s chunks' := by
    rw [Stage.run_eq_step, Stage.run_eq_step, h]
  refine ⟨hrun, fun now now' hs => ?_, fun now hb => ?_⟩
  · rw [hrun, Stage.written_congr hs]
  · rw [output_eq_written, Stage.run_eq_step, Stage.run_eq_step, flatten_cut hb]

theorem reading_eq_of_cut_length :
    let s : Settings := { sleepUnit := ⟨0⟩ }
    let sent := Utf8.encode "24:CONTENT_LENGTH\x001\x00SCGI\x001\x00,x"
    let chunks := [sent.take 1, sent.drop 1]
    chunks.flatten = [sent].flatten ∧
      s.SleepsAlike (.ofSeconds 0) (.ofSeconds 1000) ∧
      Stage.run s chunks = Stage.run s [sent] ∧
      (Stage.run s chunks).written s (.ofSeconds 0) =
        (Stage.run s [sent]).written s (.ofSeconds 1000) ∧
      (Stage.run s chunks).written s (.ofSeconds 0) =
        output s (.ofSeconds 0) chunks.flatten := by
  intro s sent chunks
  have hflat : chunks.flatten = [sent].flatten := by
    rw [List.flatten_singleton]
    simpa [chunks] using List.take_append_drop 1 sent
  have halike : s.SleepsAlike (.ofSeconds 0) (.ofSeconds 1000) := fun _ units _ => by
    simp [s, Canned.sleepTime?, Duration.times?, Duration.bound, Duration.perSecond,
      Moment.ofSeconds, Canned.clockBound]
  obtain ⟨hrun, hwritten, houtput⟩ := reading_eq_of_flatten_eq (s := s) hflat
  exact ⟨hflat, halike, hrun, hwritten _ _ halike, houtput _ (by decide)⟩

end Connection

end ScgiStub
