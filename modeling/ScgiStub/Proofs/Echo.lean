import ScgiStub.Proofs.Grammar
import ScgiStub.Proofs.Responses
import ScgiStub.Proofs.Visibility

/-! # Reading an echo

An echo shows all names and values in their order, and nothing in it is escaped. Where none of
them has an apostrophe, the apostrophes divide the echo into its parts, and whoever gets it can
tell what was sent.
-/

namespace ScgiStub

section InOrder

variable {α : Type}

/-- The parts stand in the whole one after the other, each in one piece. -/
inductive InOrder : List (List α) → List α → Prop
  | nil (rest : List α) : InOrder [] rest
  | cons {part : List α} {parts : List (List α)} {rest : List α} (before : List α) :
      InOrder parts rest → InOrder (part :: parts) (before ++ (part ++ rest))

variable {part before rest whole : List α} {parts parts' : List (List α)}

theorem InOrder.prepend (h : InOrder parts rest) : InOrder parts (before ++ rest) := by
  cases h with
  | nil => exact .nil _
  | cons more h =>
    rw [← List.append_assoc]
    exact .cons _ h

theorem InOrder.of_sublist (hs : parts'.Sublist parts) (h : InOrder parts whole) :
    InOrder parts' whole := by
  induction hs generalizing whole with
  | slnil => exact h
  | cons part _ ih =>
    cases h with
    | cons before h =>
      apply ih
      exact h.prepend.prepend
  | cons_cons part _ ih =>
    cases h with
    | cons before h => exact .cons before (ih h)

theorem InOrder.isInfix (h : InOrder parts whole) (hp : part ∈ parts) : part <:+: whole := by
  induction h with
  | nil => cases hp
  | @cons first parts rest before h ih =>
    rcases List.mem_cons.mp hp with rfl | hp
    · exact ⟨before, rest, List.append_assoc _ _ _⟩
    · obtain ⟨front, back, rfl⟩ := ih hp
      exact ⟨before ++ (first ++ front), back, by simp only [List.append_assoc]⟩

theorem inOrder_intercalate (sep : List α) (parts : List (List α)) :
    InOrder parts (sep.intercalate parts) := by
  induction parts with
  | nil => exact .nil _
  | cons part parts ih =>
    cases parts with
    | nil =>
      have hpart : InOrder [part] ([] ++ (part ++ [])) := .cons [] (.nil [])
      rw [List.intercalate_singleton]
      simpa using hpart
    | cons next parts =>
      rw [List.intercalate_cons_cons, List.append_assoc]
      exact .cons [] ih.prepend

end InOrder

namespace Echo

variable {headers : List (Bytes × Bytes)}

/-- What stands between two apostrophes after the value of a header: the next header, or the
end. -/
def piecesAfter : List (Bytes × Bytes) → List Bytes
  | [] => [Utf8.encode "\x7d"]
  | (name, value) :: rest =>
    Utf8.encode ", " :: name :: Utf8.encode ": " :: value :: piecesAfter rest

def pieces : List (Bytes × Bytes) → List Bytes
  | [] => [Utf8.encode "\x7b\x7d"]
  | (name, value) :: rest =>
    Utf8.encode "\x7b" :: name :: Utf8.encode ": " :: value :: piecesAfter rest

/-- The headers among the pieces: of each four, the second and the last. -/
def headersOf : List Bytes → List (Bytes × Bytes)
  | _ :: name :: _ :: value :: rest => (name, value) :: headersOf rest
  | _ => []

def read (body : Bytes) : List (Bytes × Bytes) :=
  headersOf (body.splitOn 0x27)

/-- The headers that a reply shows, if it is one that a client can decode. -/
def readReply? (reply : Bytes) : Option (List (Bytes × Bytes)) :=
  (Response.ofBytes reply).toOption.map fun response => read response.body

def Bare (headers : List (Bytes × Bytes)) : Prop :=
  ∀ header ∈ headers, 0x27 ∉ header.1 ∧ 0x27 ∉ header.2

def fields (headers : List (Bytes × Bytes)) : List Bytes :=
  headers.flatMap fun (name, value) => [name, value]

theorem headersOf_piecesAfter (headers : List (Bytes × Bytes)) :
    headersOf (piecesAfter headers) = headers := by
  induction headers with
  | nil => rfl
  | cons header headers ih => rw [piecesAfter, headersOf, ih]

theorem headersOf_pieces (headers : List (Bytes × Bytes)) :
    headersOf (pieces headers) = headers := by
  cases headers with
  | nil => rfl
  | cons header headers => rw [pieces, headersOf, headersOf_piecesAfter]

theorem sublist_piecesAfter (headers : List (Bytes × Bytes)) :
    (fields headers).Sublist (piecesAfter headers) := by
  induction headers with
  | nil => exact List.nil_sublist _
  | cons header headers ih => exact .cons _ (.cons_cons _ (.cons _ (.cons_cons _ ih)))

theorem sublist_pieces (headers : List (Bytes × Bytes)) :
    (fields headers).Sublist (pieces headers) := by
  cases headers with
  | nil => exact List.nil_sublist _
  | cons header headers =>
    exact .cons _ (.cons_cons _ (.cons _ (.cons_cons _ (sublist_piecesAfter headers))))

theorem piecesAfter_ne_nil : piecesAfter headers ≠ [] := by
  cases headers <;> simp [piecesAfter]

theorem pieces_ne_nil : pieces headers ≠ [] := by
  cases headers <;> simp [pieces]

theorem not_mem_piecesAfter (h : Bare headers) : ∀ piece ∈ piecesAfter headers, 0x27 ∉ piece := by
  induction headers with
  | nil => exact List.forall_mem_singleton.mpr (by decide)
  | cons header headers ih =>
    obtain ⟨⟨hname, hvalue⟩, hrest⟩ := List.forall_mem_cons.mp h
    simp only [piecesAfter, List.forall_mem_cons]
    exact ⟨by decide, hname, by decide, hvalue, ih hrest⟩

theorem not_mem_pieces (h : Bare headers) : ∀ piece ∈ pieces headers, 0x27 ∉ piece := by
  cases headers with
  | nil => exact List.forall_mem_singleton.mpr (by decide)
  | cons header headers =>
    obtain ⟨⟨hname, hvalue⟩, hrest⟩ := List.forall_mem_cons.mp h
    simp only [pieces, List.forall_mem_cons]
    exact ⟨by decide, hname, by decide, hvalue, not_mem_piecesAfter hrest⟩

def shown (pair : String × String) : String :=
  s!"'{pair.1}': '{pair.2}'"

theorem encode_shown (pair : String × String) : Utf8.encode (shown pair) =
    0x27 :: ((Utf8.encodePair pair).1 ++ 0x27 :: (Utf8.encode ": " ++
      0x27 :: ((Utf8.encodePair pair).2 ++ [0x27]))) := by
  have hquote : Utf8.encode "'" = [0x27] := by decide
  have hcolon : Utf8.encode "': '" = 0x27 :: (Utf8.encode ": " ++ [0x27]) := by decide
  change Utf8.encode ("'" ++ pair.1 ++ "': '" ++ pair.2 ++ "'") = _
  simp only [Utf8.encode_append, hquote, hcolon, Utf8.encodePair, List.append_assoc,
    List.cons_append, List.nil_append]

theorem encode_intercalate_cons (pair : String × String) (pairs : List (String × String)) :
    Utf8.encode (", ".intercalate ((pair :: pairs).map shown)) ++ Utf8.encode "\x7d" =
      Utf8.encode (shown pair) ++ [0x27].intercalate (piecesAfter (pairs.map Utf8.encodePair)) := by
  induction pairs generalizing pair with
  | nil =>
    rw [List.map_singleton, String.intercalate_singleton, List.map_nil, piecesAfter,
      List.intercalate_singleton]
  | cons next pairs ih =>
    have hrest := ih next
    rw [List.map_cons] at hrest
    rw [List.map_cons, List.map_cons, String.intercalate_cons_cons, Utf8.encode_append,
      Utf8.encode_append, List.append_assoc, hrest, encode_shown next, List.map_cons, piecesAfter]
    simp [List.intercalate_cons_cons, List.intercalate_cons_of_ne_nil piecesAfter_ne_nil]

end Echo

open Echo

/-- The apostrophes of an echo stand between these pieces. -/
theorem Environment.encode_text (env : Environment) :
    Utf8.encode env.text = [0x27].intercalate (pieces (env.entries.map Utf8.encodePair)) := by
  have htext : env.text = "\x7b" ++ ", ".intercalate (env.entries.map shown) ++ "\x7d" := rfl
  rw [htext, Utf8.encode_append, Utf8.encode_append]
  cases env.entries with
  | nil => decide
  | cons pair pairs =>
    rw [List.append_assoc, encode_intercalate_cons, encode_shown, List.map_cons, pieces]
    simp [List.intercalate_cons_cons, List.intercalate_cons_of_ne_nil piecesAfter_ne_nil]

def Environment.Bare (env : Environment) : Prop :=
  ∀ pair ∈ env.entries, '\x27' ∉ pair.1.toList ∧ '\x27' ∉ pair.2.toList

instance (env : Environment) : Decidable env.Bare :=
  inferInstanceAs (Decidable (∀ pair ∈ env.entries, _))

variable {env env' : Environment} {s : Settings} {now : Moment} {chunks : List Bytes}
  {request : Request} {w : Wire}

theorem Environment.bare_iff : env.Bare ↔ Echo.Bare (env.entries.map Utf8.encodePair) := by
  have hquote : '\x27'.toNat < 0x80 := by decide
  simp only [Echo.Bare, List.forall_mem_map, Utf8.encodePair]
  exact forall₂_congr fun pair _ =>
    and_congr (not_congr (Utf8.mem_encode_iff hquote).symm)
      (not_congr (Utf8.mem_encode_iff hquote).symm)

theorem Environment.read_encode_text (h : env.Bare) :
    Echo.read (Utf8.encode env.text) = env.entries.map Utf8.encodePair := by
  rw [Echo.read, encode_text,
    List.splitOn_intercalate 0x27 (not_mem_pieces (bare_iff.mp h)) pieces_ne_nil, headersOf_pieces]

theorem Environment.entries_eq_of_encode_text_eq (h : env.Bare) (h' : env'.Bare)
    (heq : Utf8.encode env.text = Utf8.encode env'.text) : env.entries = env'.entries := by
  apply List.map_injective_iff.mpr Utf8.encodePair_injective
  rw [← read_encode_text h, heq, read_encode_text h']

/-- With apostrophes, different environments may look the same. -/
example : (Environment.ofPairs [("A", "1', 'B': '2")]).text =
    (Environment.ofPairs [("A", "1"), ("B", "2")]).text := by
  decide

theorem Environment.inOrder_encode_text (env : Environment) :
    InOrder (fields (env.entries.map Utf8.encodePair)) (Utf8.encode env.text) := by
  rw [encode_text]
  exact (inOrder_intercalate _ _).of_sublist (sublist_pieces _)

theorem Wire.bare_headers (h : 0x27 ∉ w.block) : Echo.Bare w.headers := by
  intro header hm
  have hblock : ∀ b ∈ header.1 ++ 0 :: (header.2 ++ [0]), b ∈ w.block := fun b hb =>
    List.mem_flatMap.mpr ⟨header, hm, hb⟩
  constructor
  · intro hb
    exact h (hblock 0x27 (by simp [hb]))
  · intro hb
    exact h (hblock 0x27 (by simp [hb]))

theorem Echo.readReply?_page (h : env.Bare) : readReply? (Reply.page env.text).wire =
    some (env.entries.map Utf8.encodePair) := by
  have hinfo : Response.Unbroken (Utf8.encode "text/plain") := by decide
  have hfits : "text/plain".utf8ByteSize ≤ 1024 := by decide
  rw [readReply?, Reply.page, Response.ofBytes_wire hinfo, if_pos hfits]
  exact congrArg some (Environment.read_encode_text h)

namespace Connection

/-- An echo has all names and values in it, in their order. Without apostrophes in them, equal
echoes come from equal environments, and from the reply to a request that has the empty path
a client can read the headers that were sent, in their order. -/
theorem headers_recovered (s : Settings) (now : Moment) :
    (∀ request : Request,
      let body := Utf8.encode request.env.text
      Canned.echo.perform now s.sleepUnit request =
        .ok { reply := .status .success "text/plain" body } ∧
      InOrder (request.env.entries.flatMap fun (name, value) =>
        [Utf8.encode name, Utf8.encode value]) body ∧
      ∀ pair ∈ request.env.entries, Utf8.encode pair.1 <:+: body ∧ Utf8.encode pair.2 <:+: body) ∧
    (∀ env env' : Environment, env.Bare → env'.Bare →
      Utf8.encode env.text = Utf8.encode env'.text → env.entries = env'.entries) ∧
    ∀ chunks request, Stage.run s chunks = .accepted request → request.path? = some "" →
      ∃ w tail, chunks.flatten = Wire.bytes w ++ tail ∧ w.Proper s ∧
        (∀ w' tail', chunks.flatten = Wire.bytes w' ++ tail' → w'.Proper s → w' = w) ∧
        (0x27 ∉ w.block →
          Echo.readReply? ((Stage.run s chunks).written s now) = some w.headers) := by
  refine ⟨?_, ?_, ?_⟩
  · intro request body
    have horder := request.env.inOrder_encode_text
    rw [fields, List.flatMap_map] at horder
    refine ⟨rfl, horder, fun pair hp => ⟨?_, ?_⟩⟩
    · exact horder.isInfix (List.mem_flatMap.mpr ⟨pair, hp, List.mem_cons_self⟩)
    · exact horder.isInfix (List.mem_flatMap.mpr ⟨pair, hp, by simp [Utf8.encodePair]⟩)
  · intro env env' h h' heq
    exact Environment.entries_eq_of_encode_text_eq h h' heq
  · intro chunks request h hpath
    have hstep := h
    rw [Stage.run_eq_step] at hstep
    obtain ⟨w, tail, hsent, hw, hheaders, -⟩ := Wire.exists_of_accepted hstep
    refine ⟨w, tail, hsent, hw, fun w' tail' hsent' hw' => ?_, fun hblock => ?_⟩
    · exact (Wire.bytes_append_inj hw' hw (hsent'.symm.trans hsent)).1
    · have hbare : request.env.Bare := by
        rw [Environment.bare_iff, hheaders]
        exact Wire.bare_headers hblock
      rw [Stage.written_of_accepted h, answer_of_echo (Canned.ofPath_eq_echo_iff.mpr hpath),
        Echo.readReply?_page hbare, hheaders]

theorem headers_recovered_separators :
    let entries := [("CONTENT_LENGTH", "0"), ("SCGI", "1"), ("PATH_INFO", ""), ("A", "1, B: 2")]
    let entries' :=
      [("CONTENT_LENGTH", "0"), ("SCGI", "1"), ("PATH_INFO", ""), ("A", "1"), ("B", "2")]
    let chunks := [Request.netstring (HeaderBlock.encode entries)]
    Utf8.encode (Environment.ofPairs entries).text ≠
        Utf8.encode (Environment.ofPairs entries').text ∧
      ∃ w tail, chunks.flatten = Wire.bytes w ++ tail ∧
        Echo.readReply? ((Stage.run {} chunks).written {} ⟨0⟩) = some w.headers := by
  intro entries entries' chunks
  obtain ⟨-, hinjective, hread⟩ := headers_recovered {} ⟨0⟩
  have hbare : (Environment.ofPairs entries).Bare := by decide +kernel
  have hbare' : (Environment.ofPairs entries').Bare := by decide +kernel
  have haccepted : Stage.run {} chunks = .accepted { env := .ofPairs entries } := by decide +kernel
  obtain ⟨w, tail, hsent, -, -, hw⟩ := hread chunks _ haccepted (by decide +kernel)
  have hquote : 0x27 ∉ w.block := by
    intro hm
    have hflat : 0x27 ∈ chunks.flatten := by
      rw [hsent, Wire.bytes]
      simp [hm]
    revert hflat
    decide +kernel
  refine ⟨?_, w, tail, hsent, hw hquote⟩
  intro heq
  exact absurd (hinjective _ _ hbare hbare' heq) (by decide +kernel)

end Connection

end ScgiStub
