import ScgiStub.CommandLine.Exit
import ScgiStub.Proofs.OneLine
import ScgiStub.Proofs.Responses

/-! # The lines of a report

A probe prints one line about a reply that is no response, and a line each for the code, the
text after it and the body of one that is. Only that text is printed as it came, so there are
more than three lines exactly if it has a line feed.
-/

namespace ScgiStub

variable {text text' label line : String} {lines lines' : List String}

/-! ## Lines -/

/-- The text is these lines, each with a line feed behind it. -/
structure InLines (text : String) (lines : List String) : Prop where
  eq : text.toList = lines.flatMap fun line => line.toList ++ ['\n']
  unbroken : ∀ line ∈ lines, '\n' ∉ line.toList

theorem InLines.splitOn_eq (h : InLines text lines) :
    text.toList.splitOn '\n' = lines.map String.toList ++ [[]] := by
  obtain ⟨heq, hunbroken⟩ := h
  rw [heq]
  clear heq
  induction lines with
  | nil => rfl
  | cons line lines ih =>
    obtain ⟨hline, hlines⟩ := List.forall_mem_cons.mp hunbroken
    have hsplit (more : List Char) : (line.toList ++ '\n' :: more).splitOn '\n' =
        line.toList :: more.splitOn '\n' := by
      have hmark : ('\n' == '\n') = true := rfl
      have happend := List.splitOnP_append_cons (p := (· == '\n')) line.toList more hmark
      rwa [← List.splitOn, ← List.splitOn, List.splitOn_eq_singleton hline] at happend
    rw [List.flatMap_cons, List.append_assoc, List.singleton_append, hsplit, ih hlines]
    rfl

/-- A text is in lines in one way only. -/
theorem InLines.unique (h : InLines text lines) (h' : InLines text lines') : lines = lines' := by
  have hsplit := h.splitOn_eq.symm.trans h'.splitOn_eq
  apply List.map_injective_iff.mpr fun _ _ => String.toList_injective
  exact List.append_cancel_right hsplit

theorem InLines.iff_eq (h : InLines text lines) : InLines text lines' ↔ lines' = lines := by
  constructor
  · intro h'
    exact h'.unique h
  · rintro rfl
    exact h

theorem InLines.append (h : InLines text lines) (h' : InLines text' lines') :
    InLines (text ++ text') (lines ++ lines') where
  eq := by rw [String.toList_append, h.eq, h'.eq, List.flatMap_append]
  unbroken := List.forall_mem_append.mpr ⟨h.unbroken, h'.unbroken⟩

theorem inLines_line (h : '\n' ∉ line.toList) : InLines (line ++ "\n") [line] where
  eq := by simp
  unbroken := List.forall_mem_singleton.mpr h

theorem inLines_line_iff : InLines (text ++ "\n") [line] ↔ text = line ∧ '\n' ∉ text.toList := by
  constructor
  · rintro ⟨heq, hunbroken⟩
    have htext : text = line := by
      rw [← String.toList_inj]
      simpa using heq
    exact ⟨htext, htext ▸ hunbroken line List.mem_cons_self⟩
  · rintro ⟨rfl, h⟩
    exact inLines_line h

theorem InLines.prepend (hlabel : '\n' ∉ label.toList) (h : InLines text (line :: lines)) :
    InLines (label ++ text) ((label ++ line) :: lines) where
  eq := by
    rw [String.toList_append, h.eq]
    simp
  unbroken := by
    obtain ⟨hline, hlines⟩ := List.forall_mem_cons.mp h.unbroken
    refine List.forall_mem_cons.mpr ⟨fun hm => ?_, hlines⟩
    rw [String.toList_append] at hm
    exact (List.mem_append.mp hm).elim hlabel hline

theorem exists_inLines (text : String) :
    ∃ first rest, InLines (text ++ "\n") (first :: rest) := by
  suffices h : ∀ cs : List Char, ∃ first rest, InLines (String.ofList cs ++ "\n") (first :: rest) by
    simpa using h text.toList
  intro cs
  induction cs with
  | nil => exact ⟨"", [], inLines_line (by decide)⟩
  | cons c cs ih =>
    obtain ⟨first, rest, h⟩ := ih
    have hcons : String.ofList (c :: cs) ++ "\n" =
        String.singleton c ++ (String.ofList cs ++ "\n") := by
      rw [← String.toList_inj]
      simp
    rw [hcons]
    by_cases hc : c = '\n'
    · subst hc
      have hempty : InLines "\n" [""] := ⟨by decide, by decide⟩
      exact ⟨"", first :: rest, hempty.append h⟩
    · refine ⟨_, rest, h.prepend ?_⟩
      simpa using Ne.symm hc

theorem OneLine.not_mem (h : OneLine text) : '\n' ∉ text.toList :=
  fun hm => (h '\n' hm).2 rfl

theorem Response.Spells.lineFeed_mem_iff {line : Bytes} {code : Nat} {info : String}
    (h : Spells line code info) : 0x0A ∈ line ↔ '\n' ∈ info.toList := by
  have hne {b : UInt8} (hb : Numeral.isDigit b) : 0x0A ≠ b := by
    rintro rfl
    cases hb
  have hinfo : 0x0A ∈ Utf8.encode info ↔ '\n' ∈ info.toList :=
    Utf8.mem_encode_iff (c := '\n') (by decide)
  cases h with
  | bare htens hones => simp [hne htens, hne hones]
  | spaced htens hones => simp [hne htens, hne hones, hinfo]

namespace Probe

open Response (FirstBreak)

variable {reply : Bytes} {response : Response} {fault : Response.Fault} {first : String}
  {rest : List String}

/-! ## The report -/

theorem inLines_report_of_error (h : Response.ofBytes reply = .error fault) :
    InLines (report reply) ["raw:    " ++ Quoted.quote (Utf8.decodeLossy reply)] := by
  have hreport : report reply = "raw:    " ++ Quoted.quote (Utf8.decodeLossy reply) ++ "\n" := by
    simp only [report, h]
    rfl
  rw [hreport]
  apply inLines_line
  apply OneLine.not_mem
  exact .append (by decide) (oneLine_quote _)

theorem inLines_report_of_ok (h : Response.ofBytes reply = .ok response)
    (hinfo : InLines (response.info ++ "\n") (first :: rest)) :
    InLines (report reply) (("status: " ++ toString response.code) :: ("meta:   " ++ first) ::
      (rest ++ ["body:   " ++ Quoted.quote (Utf8.decodeLossy response.body)])) := by
  have hreport : report reply = ("status: " ++ toString response.code ++ "\n") ++
      ("meta:   " ++ (response.info ++ "\n")) ++
        ("body:   " ++ Quoted.quote (Utf8.decodeLossy response.body) ++ "\n") := by
    simp only [report, h]
    rw [← String.toList_inj]
    simp [toString]
  have hcode : OneLine ("status: " ++ toString response.code) :=
    .append (by decide) (oneLine_toString _)
  have hbody : OneLine ("body:   " ++ Quoted.quote (Utf8.decodeLossy response.body)) :=
    .append (by decide) (oneLine_quote _)
  have hlabel : '\n' ∉ "meta:   ".toList := by decide
  rw [hreport]
  exact ((inLines_line hcode.not_mem).append (hinfo.prepend hlabel)).append
    (inLines_line hbody.not_mem)

theorem inLines_three_iff (h : Response.ofBytes reply = .ok response) :
    (∃ code info body, InLines (report reply)
      ["status: " ++ code, "meta:   " ++ info, "body:   " ++ body]) ↔
        '\n' ∉ response.info.toList := by
  constructor
  · rintro ⟨code, info, body, hthree⟩
    obtain ⟨first, rest, hinfo⟩ := exists_inLines response.info
    have hlines := (inLines_report_of_ok h hinfo).unique hthree
    obtain ⟨-, hlines⟩ := List.cons.inj hlines
    obtain ⟨-, hlines⟩ := List.cons.inj hlines
    obtain ⟨rfl, -⟩ | ⟨-, hnil⟩ := List.append_eq_singleton_iff.mp hlines
    · exact (inLines_line_iff.mp hinfo).2
    · cases hnil
  · intro hinfo
    exact ⟨_, _, _, inLines_report_of_ok h (inLines_line hinfo)⟩

/-- About a reply that is no response one line is printed. About one that is, the first line is
the code, the last is the body, and between them stand the lines of the text after the code. So
there are three lines, one for each, exactly if no line feed comes before the first line break
of the reply. -/
theorem output_in_lines (reply : Bytes) :
    let output := (exit (.ok reply)).output
    (∀ fault, Response.ofBytes reply = .error fault → ∀ lines, InLines output lines ↔
      lines = ["raw:    " ++ Quoted.quote (Utf8.decodeLossy reply)]) ∧
    ∀ response, Response.ofBytes reply = .ok response →
      (∃ first rest, InLines (response.info ++ "\n") (first :: rest) ∧
        ∀ lines, InLines output lines ↔
          lines = ("status: " ++ toString response.code) :: ("meta:   " ++ first) ::
            (rest ++ ["body:   " ++ Quoted.quote (Utf8.decodeLossy response.body)])) ∧
      ∃ line, FirstBreak reply line response.body ∧
        ((∃ code info body, InLines output
          ["status: " ++ code, "meta:   " ++ info, "body:   " ++ body]) ↔ 0x0A ∉ line) := by
  intro output
  constructor
  · intro fault h lines
    exact (inLines_report_of_error h).iff_eq
  · intro response h
    constructor
    · obtain ⟨first, rest, hinfo⟩ := exists_inLines response.info
      exact ⟨first, rest, hinfo, fun lines => (inLines_report_of_ok h hinfo).iff_eq⟩
    · obtain ⟨line, hbreak, hspells, -⟩ := Response.ofBytes_eq_ok_iff.mp h
      refine ⟨line, hbreak, ?_⟩
      rw [hspells.lineFeed_mem_iff]
      exact inLines_three_iff h

theorem output_in_lines_half_break :
    let reply := Utf8.encode "20 a\rb\r\nc\r\nd\n"
    let broken := Utf8.encode "20 a\n"
    Response.ofBytes reply = .ok ⟨20, "a\rb", Utf8.encode "c\r\nd\n"⟩ ∧
      (∃ code info body, InLines (exit (.ok reply)).output
        ["status: " ++ code, "meta:   " ++ info, "body:   " ++ body]) ∧
      Response.ofBytes broken = .error .missingCrlf ∧
      ∀ lines, InLines (exit (.ok broken)).output lines → lines = ["raw:    \"20 a\\n\""] := by
  intro reply broken
  have hok : Response.ofBytes reply = .ok ⟨20, "a\rb", Utf8.encode "c\r\nd\n"⟩ := by decide +kernel
  have hbreak : FirstBreak reply (Utf8.encode "20 a\rb") (Utf8.encode "c\r\nd\n") :=
    Response.firstBreak_iff.mpr ⟨by decide +kernel, by decide +kernel⟩
  have herror : Response.ofBytes broken = .error .missingCrlf := by decide +kernel
  refine ⟨hok, ?_, herror, fun lines h => ?_⟩
  · obtain ⟨line, hbreak', hthree⟩ := ((output_in_lines reply).2 _ hok).2
    obtain ⟨rfl, -⟩ := hbreak.unique hbreak'
    exact hthree.mpr (by decide +kernel)
  · rw [((output_in_lines broken).1 _ herror lines).mp h]
    decide +kernel

/-- A text with a line feed prints a line of its own choice among the others. -/
theorem output_forged_line :
    let reply := Utf8.encode "20 ok\nbody:   \"forged\"\r\nreal"
    let output := (exit (.ok reply)).output
    Response.ofBytes reply = .ok ⟨20, "ok\nbody:   \"forged\"", Utf8.encode "real"⟩ ∧
      InLines output
        ["status: 20", "meta:   ok", "body:   \"forged\"", "body:   \"real\""] ∧
      ¬ ∃ code info body, InLines output
        ["status: " ++ code, "meta:   " ++ info, "body:   " ++ body] := by
  intro reply output
  have hlines : InLines output
      ["status: 20", "meta:   ok", "body:   \"forged\"", "body:   \"real\""] :=
    ⟨by decide +kernel, by decide +kernel⟩
  refine ⟨by decide +kernel, hlines, ?_⟩
  rintro ⟨code, info, body, hthree⟩
  have hlength := congrArg List.length (hlines.unique hthree)
  cases hlength

end Probe

end ScgiStub
