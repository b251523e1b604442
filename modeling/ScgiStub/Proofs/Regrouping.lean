import ScgiStub.Proofs.Conservation

/-! # Regrouping what a reader is fed

Where one piece ends and the next begins matters to a reader only as far as it has
spoken in between. This holds after any history, one that goes on after a fault too.
-/

namespace ScgiStub

namespace Reader

variable {r r' : Reader} {a b : Bytes} {pieces : List Bytes} {said : Except Fault Progress}

theorem feed_append_of_incomplete (h : r.feed a = (.ok .incomplete, r')) :
    r.feed (a ++ b) = r'.feed b := by
  rw [feed_append, h]
  rfl

theorem feed_append_of_said (h : r.feed a = (said, r')) (hs : said ≠ .ok .incomplete) :
    r.feed (a ++ b) = (said, r'.push b) := by
  rw [feed_append, h]
  rcases said with fault | progress
  · rfl
  · cases progress with
    | incomplete => exact absurd rfl hs
    | headersDone => rfl
    | done => rfl

theorem feed_flatten_append (h : ∀ said ∈ (r.feedAll pieces).1, said = .ok .incomplete) :
    r.feed (pieces.flatten ++ b) = (r.feedAll pieces).2.feed b := by
  induction pieces generalizing r with
  | nil => rfl
  | cons piece pieces ih =>
    rcases hf : r.feed piece with ⟨said, r'⟩
    rw [feedAll_cons hf] at h ⊢
    obtain ⟨rfl, hlater⟩ := List.forall_mem_cons.mp h
    rw [List.flatten_cons, List.append_assoc, feed_append_of_incomplete hf]
    exact ih hlater

/-- After any history, two pieces do what one longer piece does while the reader waits at
the first. If it says anything else there, it says that to the longer piece too, is left in
the same phase with the same request, and keeps the second piece behind what it keeps. The
same goes for any row of pieces at which it waits. -/
theorem feed_regrouped (limit : Nat) (pieces : List Bytes) (a b : Bytes) :
    let r := (feedAll { limit } pieces).2
    (∀ r', r.feed a = (.ok .incomplete, r') → r.feed (a ++ b) = r'.feed b) ∧
    (∀ said r', r.feed a = (said, r') → said ≠ .ok .incomplete →
      r.feed (a ++ b) = (said, { r' with pending := r'.pending ++ b })) ∧
    ∀ row, (∀ said ∈ (r.feedAll row).1, said = .ok .incomplete) →
      r.feed (row.flatten ++ b) = (r.feedAll row).2.feed b := by
  intro r
  refine ⟨?_, ?_, ?_⟩
  · intro r' h
    exact feed_append_of_incomplete h
  · intro said r' h hs
    exact feed_append_of_said h hs
  · intro row h
    exact feed_flatten_append h

theorem feed_regrouped_refused_block :
    let r := (feedAll { limit := 18 } [Utf8.encode "18:" ++ List.replicate 18 0x78]).2
    let block := Utf8.encode "CONTENT_LENGTH\x00+1\x00"
    let head := block ++ Utf8.encode ","
    (∃ r', r.feed block = (.ok .incomplete, r') ∧ r.feed head = r'.feed (Utf8.encode ",")) ∧
    ∃ r', r.feed head = (.ok .headersDone, r') ∧
      r.feed (head ++ Utf8.encode "ab") =
        (.ok .headersDone, { r' with pending := r'.pending ++ Utf8.encode "ab" }) := by
  intro r block head
  obtain ⟨hwaits, -, -⟩ := feed_regrouped 18 [Utf8.encode "18:" ++ List.replicate 18 0x78]
    block (Utf8.encode ",")
  obtain ⟨-, hspeaks, -⟩ := feed_regrouped 18 [Utf8.encode "18:" ++ List.replicate 18 0x78]
    head (Utf8.encode "ab")
  have hblock : (r.feed block).1 = .ok .incomplete := by decide +kernel
  have hhead : (r.feed head).1 = .ok .headersDone := by decide +kernel
  constructor
  · exact ⟨_, Prod.ext hblock rfl, hwaits _ (Prod.ext hblock rfl)⟩
  · exact ⟨_, Prod.ext hhead rfl, hspeaks _ _ (Prod.ext hhead rfl) nofun⟩

end Reader

end ScgiStub
