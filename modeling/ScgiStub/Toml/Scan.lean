/-! # Scanning a text

A scan takes what it knows from the front of a text and leaves the rest. Blanks,
comments and line ends between the parts of a document mean nothing.
-/

namespace ScgiStub.Toml

/-- What stands at the front of a text, with the text after it. -/
abbrev Scan (α : Type) := List Char → Option (α × List Char)

/-- Takes steps until one of them ends with a result. A step that leaves the
text as long as it was gets nowhere, so it counts as a failure. -/
def Scan.repeat {σ α : Type} (step : σ → Scan (σ ⊕ α)) (s : σ) : Scan α := fun cs =>
  match step s cs with
  | none => none
  | some (.inr a, rest) => some (a, rest)
  | some (.inl s, rest) =>
    if rest.length < cs.length then Scan.repeat step s rest else none
termination_by cs => cs.length

def isBlank (c : Char) : Bool :=
  c = ' ' || c = '\t'

def isPlain (c : Char) : Bool :=
  c = '\t' || (' ' ≤ c && c ≠ '\x7f')

def skipBlanks (cs : List Char) : List Char :=
  cs.dropWhile isBlank

def skipComment (cs : List Char) : List Char :=
  match skipBlanks cs with
  | '#' :: cs => cs.dropWhile isPlain
  | cs => cs

def afterNewline? : List Char → Option (List Char)
  | '\n' :: cs => some cs
  | '\r' :: '\n' :: cs => some cs
  | _ => none

theorem length_dropWhile_le {α : Type} (p : α → Bool) (cs : List α) :
    (cs.dropWhile p).length ≤ cs.length :=
  (List.dropWhile_suffix p).length_le

theorem length_skipBlanks_le (cs : List Char) : (skipBlanks cs).length ≤ cs.length :=
  length_dropWhile_le isBlank cs

theorem length_skipComment_le (cs : List Char) : (skipComment cs).length ≤ cs.length := by
  have hb := length_skipBlanks_le cs
  unfold skipComment
  split
  · next rest h =>
    have hr := length_dropWhile_le isPlain rest
    rw [h, List.length_cons] at hb
    omega
  · exact hb

theorem length_lt_of_afterNewline? {cs rest : List Char} (h : afterNewline? cs = some rest) :
    rest.length < cs.length := by
  unfold afterNewline? at h
  split at h
  · obtain rfl := Option.some.inj h; exact Nat.lt_succ_self _
  · obtain rfl := Option.some.inj h; exact Nat.lt_add_of_pos_right (Nat.succ_pos 1)
  · exact nomatch h

/-- Goes on to the next line as long as nothing but a line end is left of one. -/
def skipWholeLines (skip : List Char → List Char)
    (short : ∀ cs, (skip cs).length ≤ cs.length) (cs : List Char) : List Char :=
  match _h : afterNewline? (skip cs) with
  | some rest => skipWholeLines skip short rest
  | none => skip cs
termination_by cs.length
decreasing_by exact Nat.lt_of_lt_of_le (length_lt_of_afterNewline? _h) (short cs)

def skipSpace (cs : List Char) : List Char :=
  skipWholeLines skipBlanks length_skipBlanks_le cs

def skipLines (cs : List Char) : List Char :=
  skipWholeLines skipComment length_skipComment_le cs

/-- What is left after the end of a line: blanks, a comment, and a line end
unless the text ends. -/
def endLine? (cs : List Char) : Option (List Char) :=
  match skipComment cs with
  | [] => some []
  | cs => afterNewline? cs

end ScgiStub.Toml
