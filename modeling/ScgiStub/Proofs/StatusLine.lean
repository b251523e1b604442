import ScgiStub.Proofs.Chunking
import ScgiStub.Proofs.OneLine

/-! # The status line

Nothing that a client sends can end the status line of its reply early or put
another one in its place. Only the routes with bytes of their own have none.
-/

namespace ScgiStub

variable {status : Status} {info : String} {body : Bytes}

theorem Status.exists_digits (status : Status) : ∃ tens ones,
    Numeral.write status.code = [tens, ones] ∧ Numeral.isDigit tens ∧ Numeral.isDigit ones ∧
      Numeral.value [tens, ones] = status.code := by
  have hlen : (Numeral.write status.code).length = 2 := by cases status <;> decide
  obtain ⟨tens, ones, heq⟩ := List.length_eq_two.mp hlen
  have hdigit : ∀ b ∈ [tens, ones], Numeral.isDigit b := by
    rw [← heq]
    exact Numeral.isDigit_of_mem_write
  refine ⟨tens, ones, heq, hdigit tens (by simp), hdigit ones (by simp), ?_⟩
  rw [← heq]
  exact Numeral.value_write

namespace Reply

def head (status : Status) (info : String) : String :=
  s!"{status.code} {info}"

/-- The bytes are a status line, which their first line break ends, and a body. -/
structure Framed (bytes : Bytes) (status : Status) (info : String) (body : Bytes) : Prop where
  bytes_eq : bytes = Utf8.encode (head status info) ++ 0x0D :: 0x0A :: body
  digits : ∃ tens ones, Utf8.encode (head status info) = tens :: ones :: 0x20 :: Utf8.encode info ∧
    Numeral.isDigit tens ∧ Numeral.isDigit ones ∧ Numeral.value [tens, ones] = status.code
  oneLine : OneLine info
  first_break : ∀ before after, bytes = before ++ 0x0D :: 0x0A :: after →
    Utf8.encode (head status info) <+: before

theorem encode_head : Utf8.encode (head status info) =
    Numeral.write status.code ++ 0x20 :: Utf8.encode info := by
  have hspace : Utf8.encode " " = [0x20] := by decide
  change Utf8.encode (toString status.code ++ " " ++ info) = _
  simp only [Utf8.encode_append, hspace, Numeral.write, List.append_assoc, List.cons_append,
    List.nil_append]

theorem wire_status : wire (.status status info body) =
    Utf8.encode (head status info) ++ 0x0D :: 0x0A :: body := by
  have hbreak : Utf8.encode "\r\n" = [0x0D, 0x0A] := by decide
  change Utf8.encode (head status info ++ "\r\n") ++ body = _
  rw [Utf8.encode_append, hbreak, List.append_assoc, List.cons_append, List.singleton_append]

theorem oneLine_head (h : OneLine info) : OneLine (head status info) :=
  .append (.append (oneLine_toString _) (by decide)) h

theorem prefix_of_break {line before after : Bytes} (h : 0x0D ∉ line)
    (heq : line ++ 0x0D :: body = before ++ 0x0D :: after) : line <+: before := by
  rcases List.append_eq_append_iff.mp heq with ⟨more, rfl, -⟩ | ⟨more, rfl, hafter⟩
  · exact List.prefix_append line more
  · cases more with
    | nil => simp
    | cons b more =>
      obtain ⟨rfl, -⟩ := List.cons.inj hafter
      simp at h

theorem framed_wire (h : OneLine info) :
    Framed (wire (.status status info body)) status info body where
  bytes_eq := wire_status
  digits := by
    obtain ⟨tens, ones, heq, hdigits⟩ := status.exists_digits
    refine ⟨tens, ones, ?_, hdigits⟩
    rw [encode_head, heq, List.cons_append, List.singleton_append]
  oneLine := h
  first_break := by
    intro before after heq
    rw [wire_status] at heq
    exact prefix_of_break (oneLine_head h).not_mem_encode.1 heq

end Reply

namespace Canned

theorem ofPath_cases (path? : Option String) : ofPath path? = other ∨
    ∃ path, path? = some path ∧ (path, ofPath path?) ∈ routes := by
  cases path? with
  | none => exact .inl rfl
  | some path =>
    cases h : routes.lookup path with
    | none => left; simp [ofPath, h]
    | some canned =>
      right
      obtain ⟨before, after, hroutes, -⟩ := List.lookup_eq_some_iff.mp h
      have heq : ofPath (some path) = canned := by simp [ofPath, h]
      rw [heq, hroutes]
      exact ⟨path, rfl, by simp⟩

theorem oneLine_of_mem_routes {path : String} (h : (path, line status info) ∈ routes) :
    OneLine info := by
  simp only [routes, List.mem_cons, Prod.mk.injEq, line.injEq, reduceCtorEq, and_false,
    false_or, List.not_mem_nil, or_false] at h
  rcases h with ⟨-, -, rfl⟩ | ⟨-, -, rfl⟩ | ⟨-, -, rfl⟩ | ⟨-, -, rfl⟩ | ⟨-, -, rfl⟩ <;> decide

theorem perform_cases (canned : Canned) (now : Moment) (unit : Duration) (request : Request) :
    (∃ bytes, canned = raw bytes ∧ canned.perform now unit request = .ok { reply := .raw bytes }) ∨
    (∃ status info, canned = line status info ∧
      canned.perform now unit request = .ok { reply := .line status info }) ∨
    (∃ text wait, canned.perform now unit request = .ok { reply := .page text, wait }) ∨
    (∃ units, canned.perform now unit request = .error (.sleepOutOfRange units unit)) ∨
    canned.perform now unit request = .error (.missingVariable HeaderName.clientHash) := by
  cases canned with
  | raw bytes => exact .inl ⟨bytes, rfl, rfl⟩
  | line status info => exact .inr (.inl ⟨status, info, rfl, rfl⟩)
  | echo => exact .inr (.inr (.inl ⟨_, _, rfl⟩))
  | other => exact .inr (.inr (.inl ⟨_, _, rfl⟩))
  | sleep units =>
    cases h : sleepTime? now unit units with
    | some total => exact .inr (.inr (.inl ⟨_, total, by rw [perform, h]⟩))
    | none => exact .inr (.inr (.inr (.inl ⟨units, by rw [perform, h]⟩)))
  | clientAuth =>
    cases h : request.env.get? HeaderName.clientHash with
    | some hash => exact .inr (.inr (.inl ⟨_, _, by rw [perform, h]⟩))
    | none => exact .inr (.inr (.inr (.inr (by rw [perform, h]))))

end Canned

/-- Only the routes with bytes of their own answer without a status line. -/
theorem answer_cases (s : Settings) (now : Moment) (request : Request) :
    (∃ path bytes, request.path? = some path ∧ (path, .raw bytes) ∈ Canned.routes ∧
      answer s now request = .raw bytes) ∨
    ∃ status info body, answer s now request = .status status info body ∧ OneLine info := by
  have hroute := Canned.ofPath_cases request.path?
  unfold answer handle
  rcases Canned.perform_cases (Canned.ofPath request.path?) now s.sleepUnit request with
    ⟨bytes, hc, hp⟩ | ⟨status, info, hc, hp⟩ | ⟨text, wait, hp⟩ | ⟨units, hp⟩ | hp
  · rw [hc] at hroute
    obtain ⟨path, hpath, hmem⟩ := hroute.resolve_left nofun
    rw [hp]
    exact .inl ⟨path, bytes, hpath, hmem, rfl⟩
  · rw [hc] at hroute
    obtain ⟨path, -, hmem⟩ := hroute.resolve_left nofun
    rw [hp]
    exact .inr ⟨status, info, [], rfl, Canned.oneLine_of_mem_routes hmem⟩
  · rw [hp]
    exact .inr ⟨.success, "text/plain", Utf8.encode text, rfl, by decide⟩
  · rw [hp]
    exact .inr ⟨.cgiError, _, [], rfl, Obstacle.oneLine_sleepOutOfRange units s.sleepUnit⟩
  · rw [hp]
    exact .inr ⟨.cgiError, _, [], rfl, Obstacle.oneLine_missingVariable (by decide)⟩

namespace Connection

/-- The server writes nothing, or the bytes of a route that has its own, or a status
line and a body. A rejected request gets the code for it, the reason, and no body. -/
theorem written_framed (s : Settings) (now : Moment) (chunks : List Bytes) :
    let written := (Stage.run s chunks).written s now
    match Stage.run s chunks with
    | .waiting _ => written = []
    | .accepted request =>
      (∃ path, request.path? = some path ∧ (path, .raw written) ∈ Canned.routes) ∨
      ∃ status info body, answer s now request = .status status info body ∧
        Reply.Framed written status info body
    | .rejected rejection => Reply.Framed written .badRequest rejection.message [] := by
  cases Stage.run s chunks with
  | waiting => rfl
  | accepted request =>
    change (∃ path, _ ∧ (path, Canned.raw (answer s now request).wire) ∈ _) ∨
      ∃ status info body, _ ∧ Reply.Framed (answer s now request).wire status info body
    rcases answer_cases s now request with ⟨path, bytes, hpath, hmem, heq⟩ |
      ⟨status, info, body, heq, hline⟩
    · left
      rw [heq]
      exact ⟨path, hpath, hmem⟩
    · right
      rw [heq]
      exact ⟨status, info, body, rfl, Reply.framed_wire hline⟩
  | rejected rejection => exact Reply.framed_wire rejection.oneLine_message

/-- A name with a line break and a second status after it. -/
example :
    let entry := HeaderBlock.encode [("X\r\n99 injected", "")]
    let block := HeaderBlock.encode [("CONTENT_LENGTH", "0")] ++ entry ++ entry
    output {} ⟨0⟩ (Utf8.encode (toString block.length ++ ":") ++ block ++ Utf8.encode ",") =
      Utf8.encode "59 duplicate header \"X\\r\\n99 injected\"\r\n" := by
  decide +kernel

end Connection

end ScgiStub
