import ScgiStub.Proofs.Feeding

/-! # Driving a reader to the end of a request

A driver hands over pieces as they come and, once the headers are complete, lets
the reader go on with what it has. All that a request brings about this way can
be told from its bytes at once.
-/

namespace ScgiStub

namespace Reader

variable {r r' : Reader} {chunk : Bytes} {chunks : List Bytes}

/-- What the reader says to the pieces and to the empty piece that follows the end
of the headers, and how it is left. -/
def drive (r : Reader) : List Bytes → List (Except Fault Progress) × Reader
  | [] => ([], r)
  | chunk :: chunks =>
    match r.feed chunk with
    | (.ok .headersDone, r) =>
      let (result, r) := r.feed []
      let (results, r) := r.drive chunks
      (.ok .headersDone :: result :: results, r)
    | (result, r) =>
      let (results, r) := r.drive chunks
      (result :: results, r)

theorem drive_cons_of_ne {result : Except Fault Progress} (hf : r.feed chunk = (result, r'))
    (h : result ≠ .ok .headersDone) :
    r.drive (chunk :: chunks) = (result :: (r'.drive chunks).1, (r'.drive chunks).2) := by
  rcases result with _ | progress
  · simp [drive, hf]
  · cases progress with
    | headersDone => exact absurd rfl h
    | _ => simp [drive, hf]

theorem drive_cons_of_headersDone (h : r.feed chunk = (.ok .headersDone, r')) :
    r.drive (chunk :: chunks) =
      (.ok .headersDone :: (r'.drive ([] :: chunks)).1, (r'.drive ([] :: chunks)).2) := by
  rcases hf : r'.feed [] with ⟨result, r₁⟩
  have hne : result ≠ .ok .headersDone := by
    rintro rfl
    exact feed_ne_headersDone (phase_of_headersDone h) hf
  rw [drive_cons_of_ne hf hne, drive, h]
  simp [hf]

theorem drive_done (h : r.phase = .done) :
    r.drive chunks = (List.replicate chunks.length (.ok .done), r.push chunks.flatten) := by
  induction chunks generalizing r with
  | nil => simp [drive]
  | cons chunk chunks ih =>
    rw [drive_cons_of_ne (feed_of_done h) (by decide), ih (r := r.push chunk) h]
    simp [List.replicate_succ]

theorem drive_of_done (h : r.feed chunks.flatten = (.ok .done, r')) (hne : chunks ≠ []) :
    ∃ i k, r.drive chunks =
      (List.replicate i (.ok .incomplete) ++ List.replicate (k + 1) (.ok .done), r') := by
  induction chunks generalizing r with
  | nil => exact absurd rfl hne
  | cons chunk chunks ih =>
    have hall := h
    rw [List.flatten_cons, feed_append] at h
    rcases hf : r.feed chunk with ⟨_ | progress, r₁⟩
    · rw [hf] at h; cases h
    · cases progress with
      | headersDone => rw [hf] at h; cases h
      | incomplete =>
        rw [hf] at h
        have hmore : chunks ≠ [] := by
          rintro rfl
          rw [List.flatten_singleton, hf] at hall
          cases hall
        obtain ⟨i, k, hd⟩ := ih h hmore
        refine ⟨i + 1, k, ?_⟩
        rw [drive_cons_of_ne hf (by decide), hd]
        simp [List.replicate_succ]
      | done =>
        rw [hf] at h
        obtain rfl : r₁.push chunks.flatten = r' := congrArg Prod.snd h
        refine ⟨0, chunks.length, ?_⟩
        rw [drive_cons_of_ne hf (by decide), drive_done (phase_of_done hf)]
        simp [List.replicate_succ]

/-- The headers are reported at one piece, the end of the request with it or later,
and the reader waits in between. -/
theorem drive_of_headersDone {r₁ : Reader} (h : r.feed chunks.flatten = (.ok .headersDone, r₁))
    (hbody : r₁.feed [] = (.ok .done, r')) (hne : chunks ≠ []) :
    ∃ i j k, r.drive chunks =
      (List.replicate i (.ok .incomplete) ++ .ok .headersDone ::
        (List.replicate j (.ok .incomplete) ++ List.replicate (k + 1) (.ok .done)), r') := by
  induction chunks generalizing r with
  | nil => exact absurd rfl hne
  | cons chunk chunks ih =>
    have hall := h
    rw [List.flatten_cons, feed_append] at h
    rcases hf : r.feed chunk with ⟨_ | progress, r₂⟩
    · rw [hf] at h; cases h
    · cases progress with
      | done => rw [hf] at h; cases h
      | incomplete =>
        rw [hf] at h
        have hmore : chunks ≠ [] := by
          rintro rfl
          rw [List.flatten_singleton, hf] at hall
          cases hall
        obtain ⟨i, j, k, hd⟩ := ih h hmore
        refine ⟨i + 1, j, k, ?_⟩
        rw [drive_cons_of_ne hf (by decide), hd]
        simp [List.replicate_succ]
      | headersDone =>
        rw [hf] at h
        obtain rfl : r₂.push chunks.flatten = r₁ := congrArg Prod.snd h
        rw [feed_push, List.append_nil] at hbody
        have hbody' : r₂.feed ([] :: chunks).flatten = (.ok .done, r') := hbody
        obtain ⟨j, k, hd⟩ := drive_of_done hbody' (List.cons_ne_nil _ _)
        refine ⟨0, j, k, ?_⟩
        rw [drive_cons_of_headersDone hf, hd]
        simp

/-- From these pieces a fresh reader delivers a request with these headers and this
body, and it keeps the bytes that follow. -/
structure Delivers (limit : Nat) (chunks : List Bytes) (headers : List (String × String))
    (body tail : Bytes) : Prop where
  no_error : ∀ fault, .error fault ∉ (drive { limit } chunks).1
  headers_once : (drive { limit } chunks).1.count (.ok .headersDone) = 1
  ends_done : (drive { limit } chunks).1.getLast? = some (.ok .done)
  phase : (drive { limit } chunks).2.phase = .done
  entries : (drive { limit } chunks).2.request.env.entries = headers
  body : (drive { limit } chunks).2.request.body = body
  pending : (drive { limit } chunks).2.pending = tail

theorem delivers_of_feed {limit : Nat} {headers : List (String × String)} {body tail : Bytes}
    (h : feed { limit } chunks.flatten = (.ok .headersDone, r))
    (hbody : r.feed [] = (.ok .done, r'))
    (hr : r'.request.env.entries = headers ∧ r'.request.body = body ∧ r'.pending = tail) :
    Delivers limit chunks headers body tail := by
  have hne : chunks ≠ [] := by
    rintro rfl
    have hwait : feed { limit } [] = (.ok .incomplete, { limit }) := rfl
    rw [List.flatten_nil, hwait] at h
    cases h
  obtain ⟨i, j, k, hd⟩ := drive_of_headersDone h hbody hne
  constructor
  · intro fault
    simp [hd]
  · simp [hd, List.count_append, List.count_replicate]
  · simp [hd, List.getLast?_append, List.getLast?_cons, List.getLast?_replicate]
  · rw [hd]; exact phase_of_done hbody
  · rw [hd]; exact hr.1
  · rw [hd]; exact hr.2.1
  · rw [hd]; exact hr.2.2

end Reader

end ScgiStub
