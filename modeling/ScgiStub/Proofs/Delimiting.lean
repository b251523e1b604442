import ScgiStub.Proofs.Grammar
import ScgiStub.Proofs.Loop

/-! # Where a request ends

A request shows by itself where it ends: before its last byte nothing is decided,
and after it nothing changes any more.
-/

namespace ScgiStub

variable {s : Settings} {w : Wire} {sent more : Bytes} {chunks chunks' : List Bytes}

namespace Connection.Stage

theorem step_append_of_decided {stage : Stage} (h : step s (start s) sent = stage)
    (hd : stage.Decided) : step s (start s) (sent ++ more) = stage := by
  rw [← step_step, h, step_of_decided hd]

theorem run_append_of_decided {stage : Stage} (h : run s chunks = stage) (hd : stage.Decided)
    (hc : chunks'.flatten = chunks.flatten ++ more) : run s chunks' = stage := by
  rw [run_eq_step] at h ⊢
  rw [hc]
  exact step_append_of_decided h hd

theorem written_waiting (r : Reader) (now : Moment) : (waiting r).written s now = [] := rfl

end Connection.Stage

open Connection

/-- Before the last byte of a proper request, the reading still waits. -/
theorem Wire.waiting_of_prefix (hw : w.Proper s) (hp : sent <+: w.bytes) (hne : sent ≠ w.bytes) :
    ∃ r, Stage.step s (Stage.start s) sent = .waiting r := by
  obtain ⟨rest, hrest⟩ := hp
  cases h : Stage.step s (Stage.start s) sent with
  | waiting r => exact ⟨r, rfl⟩
  | accepted request =>
    obtain ⟨w', tail, rfl, hw', -⟩ := exists_of_accepted h
    have heq : w.bytes ++ [] = w'.bytes ++ (tail ++ rest) := by
      rw [List.append_nil, ← hrest, List.append_assoc]
    obtain ⟨rfl, htail⟩ := bytes_append_inj hw hw' heq
    obtain ⟨rfl, -⟩ := List.nil_eq_append_iff.mp htail
    exact absurd (List.append_nil _) hne
  | rejected rejection =>
    obtain ⟨request, hr⟩ := exists_spelled hw
    have hall : Stage.step s (Stage.start s) (sent ++ rest) = _ :=
      Stage.step_append_of_decided h trivial
    have haccepted : Stage.step s (Stage.start s) (w.bytes ++ []) = .accepted request :=
      accepted_of_proper hw hr
    rw [List.append_nil, ← hrest, hall] at haccepted
    cases haccepted

namespace Connection

/-- A decision outlasts whatever else comes. The request in what was accepted ends
where it ends: while any of its bytes are missing, the reading waits and nothing is
written, so none of its beginnings is accepted. -/
theorem reading_stable (s : Settings) (chunks : List Bytes) :
    (∀ stage, Stage.run s chunks = stage → stage.Decided →
      ∀ chunks' more, chunks'.flatten = chunks.flatten ++ more → Stage.run s chunks' = stage) ∧
    ∀ request, Stage.run s chunks = .accepted request →
      ∃ w tail, chunks.flatten = Wire.bytes w ++ tail ∧ w.Proper s ∧ w.Spells request ∧
        ∀ chunks', chunks'.flatten <+: w.bytes → chunks'.flatten ≠ w.bytes →
          (∃ r, Stage.run s chunks' = .waiting r) ∧
          (∀ now, (Stage.run s chunks').written s now = []) ∧
          ∀ request', Stage.run s chunks' ≠ .accepted request' := by
  refine ⟨fun stage h hd chunks' more hc => Stage.run_append_of_decided h hd hc, ?_⟩
  intro request h
  rw [Stage.run_eq_step] at h
  obtain ⟨w, tail, hsent, hw, hspells⟩ := Wire.exists_of_accepted h
  refine ⟨w, tail, hsent, hw, hspells, fun chunks' hp hne => ?_⟩
  rw [Stage.run_eq_step]
  obtain ⟨r, hr⟩ := Wire.waiting_of_prefix hw hp hne
  rw [hr]
  exact ⟨⟨r, rfl⟩, Stage.written_waiting r, nofun⟩

theorem reading_stable_padded :
    let sent := Wire.padded.bytes
    ∃ request, Stage.run {} [sent] = .accepted request ∧
      Stage.run {} [sent.take 3, sent.drop 3, Utf8.encode ",more"] = .accepted request ∧
      ∃ r, Stage.run {} [sent.dropLast] = .waiting r := by
  intro sent
  obtain ⟨request, hr⟩ := Wire.exists_spelled Wire.proper_padded
  have hrun : Stage.run {} [sent] = .accepted request := by
    rw [Stage.run_eq_step, List.flatten_singleton, ← List.append_nil sent]
    exact Wire.accepted_of_proper Wire.proper_padded hr
  obtain ⟨hstable, hends⟩ := reading_stable {} [sent]
  obtain ⟨w, tail, hsent, hw, -, hwaits⟩ := hends request hrun
  rw [List.flatten_singleton, ← List.append_nil sent] at hsent
  obtain ⟨rfl, -⟩ := Wire.bytes_append_inj Wire.proper_padded hw hsent
  refine ⟨request, hrun, hstable _ hrun trivial _ (Utf8.encode ",more") (by decide), ?_⟩
  exact (hwaits [sent.dropLast] (by decide) (by decide)).1

end Connection

end ScgiStub
