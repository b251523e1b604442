import ScgiStub.Proofs.StatusLine
import ScgiStub.Request.Encoder

/-! # What a reply shows of its request

The path selects a behaviour, and the behaviour looks at no more than the headers that it
shows: all of them for the empty path, one for the path that asks for it, none for any
other path. No reply depends on the body.
-/

namespace ScgiStub

variable {s : Settings} {now now' : Moment} {request request' : Request}
  {path? : Option String} {canned : Canned} {bytes : Bytes}

namespace Canned

/-- The two requests are the same in what the behaviour shows of them. -/
def Alike (canned : Canned) (request request' : Request) : Prop :=
  match canned with
  | echo => request.env.entries = request'.env.entries
  | clientAuth => request.env.get? HeaderName.clientHash = request'.env.get? HeaderName.clientHash
  | _ => True

/-- If the behaviour sleeps, the clock can tell the end of that at both times or at neither. -/
def SleepsAlike (canned : Canned) (s : Settings) (now now' : Moment) : Prop :=
  ∀ units, canned = sleep units →
    (sleepTime? now s.sleepUnit units).isSome = (sleepTime? now' s.sleepUnit units).isSome

theorem perform_congr (h : canned.Alike request request') (hs : canned.SleepsAlike s now now') :
    canned.perform now s.sleepUnit request = canned.perform now' s.sleepUnit request' := by
  cases canned with
  | echo =>
    have henv : request.env = request'.env := Environment.ext h
    simp only [perform, henv]
  | clientAuth =>
    have hhash : request.env.get? _ = request'.env.get? _ := h
    simp only [perform, hhash]
  | sleep units =>
    rw [perform, perform, sleepTime?_congr (hs units rfl)]
  | _ => rfl

theorem lookup_routes : ∀ route ∈ routes, routes.lookup route.1 = some route.2 := by
  decide

theorem ofPath_eq_iff (h : canned ≠ other) :
    ofPath path? = canned ↔ ∃ path, path? = some path ∧ (path, canned) ∈ routes := by
  constructor
  · rintro rfl
    exact (ofPath_cases path?).resolve_left h
  · rintro ⟨path, rfl, hm⟩
    rw [ofPath, Option.bind_some, lookup_routes _ hm, Option.getD_some]

theorem ofPath_eq_echo_iff : ofPath path? = echo ↔ path? = some "" := by
  simp [ofPath_eq_iff, routes]

theorem ofPath_eq_clientAuth_iff : ofPath path? = clientAuth ↔ path? = some "/client_auth" := by
  simp [ofPath_eq_iff, routes]

theorem ofPath_of_not_mem (h : ∀ path, path? = some path → path ∉ routes.map (·.1)) :
    ofPath path? = other := by
  by_contra hne
  obtain ⟨path, hpath, hm⟩ := (ofPath_eq_iff hne).mp rfl
  exact h path hpath (List.mem_map_of_mem hm)

/-- Two of the behaviours show something; for the others any two requests are alike. -/
theorem alike_of_ne (hecho : canned ≠ echo) (hauth : canned ≠ clientAuth) :
    canned.Alike request request' := by
  cases canned with
  | echo => exact absurd rfl hecho
  | clientAuth => exact absurd rfl hauth
  | _ => trivial

end Canned

theorem answer_eq_of_alike (hpath : request.path? = request'.path?)
    (h : (Canned.ofPath request.path?).Alike request request')
    (hs : (Canned.ofPath request.path?).SleepsAlike s now now') :
    answer s now request = answer s now' request' := by
  rw [answer, answer, handle, handle, ← hpath, Canned.perform_congr h hs]

/-! ## Telling an echo by its last byte -/

def EndsLine (bytes : Bytes) : Prop :=
  bytes = [] ∨ bytes.getLast? = some 0x0A

instance (bytes : Bytes) : Decidable (EndsLine bytes) :=
  inferInstanceAs (Decidable (_ ∨ _))

theorem endsLine_concat {b : UInt8} : EndsLine (bytes ++ [b]) ↔ b = 0x0A := by
  simp [EndsLine]

namespace Reply

theorem endsLine_line (status : Status) (info : String) : EndsLine (line status info).wire := by
  have hwire : (line status info).wire = (Utf8.encode (head status info) ++ [0x0D]) ++ [0x0A] := by
    rw [line, wire_status]
    simp
  rw [hwire, endsLine_concat]

theorem wire_page (text last : String) : (page (text ++ last)).wire =
    (Utf8.encode (head .success "text/plain") ++ 0x0D :: 0x0A :: Utf8.encode text) ++
      Utf8.encode last := by
  rw [page, wire_status, Utf8.encode_append]
  simp

theorem endsLine_page (text : String) : EndsLine (page (text ++ "\n")).wire := by
  have hbreak : Utf8.encode "\n" = [0x0A] := by decide
  rw [wire_page, hbreak, endsLine_concat]

theorem not_endsLine_echo (env : Environment) : ¬ EndsLine (page env.text).wire := by
  have hbrace : Utf8.encode "\x7d" = [0x7D] := by decide
  rw [Environment.text, wire_page, hbrace, endsLine_concat]
  decide

end Reply

theorem Canned.endsLine_of_mem_routes {path : String} (h : (path, raw bytes) ∈ routes) :
    EndsLine bytes := by
  simp only [routes, List.mem_cons, Prod.mk.injEq, raw.injEq, reduceCtorEq, and_false,
    false_or, List.not_mem_nil, or_false] at h
  rcases h with ⟨-, rfl⟩ | ⟨-, rfl⟩ | ⟨-, rfl⟩ <;> decide

/-- Every reply but an echo ends a line. -/
theorem endsLine_answer (h : Canned.ofPath request.path? ≠ .echo) :
    EndsLine (answer s now request).wire := by
  unfold answer handle
  cases hc : Canned.ofPath request.path? with
  | echo => exact absurd hc h
  | line status info => exact Reply.endsLine_line status info
  | raw bytes =>
    have hne : Canned.raw bytes ≠ .other := nofun
    obtain ⟨path, -, hm⟩ := (Canned.ofPath_eq_iff hne).mp hc
    exact Canned.endsLine_of_mem_routes hm
  | sleep units =>
    cases ht : Canned.sleepTime? now s.sleepUnit units with
    | some total =>
      simp only [Canned.perform, ht]
      exact Reply.endsLine_page s!"slept {units}"
    | none =>
      simp only [Canned.perform, ht]
      exact Reply.endsLine_line _ _
  | clientAuth =>
    cases hh : request.env.get? HeaderName.clientHash with
    | some hash =>
      simp only [Canned.perform, hh]
      exact Reply.endsLine_page hash
    | none =>
      simp only [Canned.perform, hh]
      exact Reply.endsLine_line _ _
  | other => exact Reply.endsLine_page "some other path received"

theorem answer_of_echo (h : Canned.ofPath request.path? = .echo) :
    answer s now request = .page request.env.text := by
  rw [answer, handle, h, Canned.perform]

theorem answer_of_other (h : Canned.ofPath request.path? = .other) :
    answer s now request = .page "some other path received\n" := by
  rw [answer, handle, h, Canned.perform]

namespace Connection

variable {chunks chunks' : List Bytes}

theorem Stage.written_of_accepted (h : Stage.run s chunks = .accepted request) :
    (Stage.run s chunks).written s now = (answer s now request).wire := by
  rw [h]
  rfl

/-- Two accepted requests with the same path get the same bytes back, if the clock treats
the sleep of that path alike and they agree on what the path shows: nothing, or the hash,
or all the headers in their order. An environment is shown for the empty path alone, and a
path that is missing or not known gets the same as any other such path. -/
theorem written_eq_of_path_eq (h : Stage.run s chunks = .accepted request)
    (h' : Stage.run s chunks' = .accepted request') (hpath : request.path? = request'.path?)
    (hs : (Canned.ofPath request.path?).SleepsAlike s now now') :
    let written := (Stage.run s chunks).written s now
    let written' := (Stage.run s chunks').written s now'
    (request.path? ≠ some "" → request.path? ≠ some "/client_auth" → written = written') ∧
    (request.path? = some "/client_auth" →
      request.env.get? HeaderName.clientHash = request'.env.get? HeaderName.clientHash →
      written = written') ∧
    (request.path? = some "" → request.env.entries = request'.env.entries →
      written = written' ∧ written = (Reply.page request.env.text).wire) ∧
    ((∃ env : Environment, written = (Reply.page env.text).wire) ↔ request.path? = some "") ∧
    ((∀ path, request.path? = some path → path ∉ Canned.routes.map (·.1)) →
      written = Utf8.encode "20 text/plain\r\nsome other path received\n") := by
  intro written written'
  have hwritten : written = (answer s now request).wire := Stage.written_of_accepted h
  have hsame (halike : (Canned.ofPath request.path?).Alike request request') :
      written = written' := by
    rw [hwritten, answer_eq_of_alike hpath halike hs]
    exact (Stage.written_of_accepted h').symm
  have hecho (hempty : request.path? = some "") : written = (Reply.page request.env.text).wire := by
    rw [hwritten, answer_of_echo (Canned.ofPath_eq_echo_iff.mpr hempty)]
  refine ⟨?_, ?_, ?_, ?_, ?_⟩
  · intro hempty hauth
    refine hsame (Canned.alike_of_ne ?_ ?_)
    · rwa [ne_eq, Canned.ofPath_eq_echo_iff]
    · rwa [ne_eq, Canned.ofPath_eq_clientAuth_iff]
  · intro hauth hhash
    refine hsame ?_
    rw [Canned.ofPath_eq_clientAuth_iff.mpr hauth]
    exact hhash
  · intro hempty hentries
    refine ⟨hsame ?_, hecho hempty⟩
    rw [Canned.ofPath_eq_echo_iff.mpr hempty]
    exact hentries
  · constructor
    · rintro ⟨env, henv⟩
      by_contra hne
      rw [← Canned.ofPath_eq_echo_iff] at hne
      have hends : EndsLine written := hwritten ▸ endsLine_answer hne
      exact Reply.not_endsLine_echo env (henv ▸ hends)
    · intro hempty
      exact ⟨_, hecho hempty⟩
  · intro hunknown
    rw [hwritten, answer_of_other (Canned.ofPath_of_not_mem hunknown)]
    decide

theorem written_eq_of_path_eq_hash :
    let entries := [("CONTENT_LENGTH", "2"), ("SCGI", "1"), ("PATH_INFO", "/client_auth"),
      ("TLS_CLIENT_HASH", "ab")]
    let entries' := [("CONTENT_LENGTH", "0"), ("TLS_CLIENT_HASH", "ab"), ("X", "cd"),
      ("PATH_INFO", "/client_auth"), ("SCGI", "1")]
    let chunks := [Request.netstring (HeaderBlock.encode entries), Utf8.encode "xy"]
    let chunks' := [Request.netstring (HeaderBlock.encode entries')]
    ∃ request request', Stage.run {} chunks = .accepted request ∧
      Stage.run {} chunks' = .accepted request' ∧ request.path? = request'.path? ∧
      (Canned.ofPath request.path?).SleepsAlike {} ⟨0⟩ (.ofSeconds 1000) ∧
      (Stage.run {} chunks).written {} ⟨0⟩ =
        (Stage.run {} chunks').written {} (.ofSeconds 1000) := by
  intro entries entries' chunks chunks'
  let request : Request := { env := .ofPairs entries, body := Utf8.encode "xy" }
  let request' : Request := { env := .ofPairs entries' }
  have h : Stage.run {} chunks = .accepted request := by decide +kernel
  have h' : Stage.run {} chunks' = .accepted request' := by decide +kernel
  have hpath : request.path? = request'.path? := by decide +kernel
  have hauth : request.path? = some "/client_auth" := by decide +kernel
  have hs : (Canned.ofPath request.path?).SleepsAlike {} ⟨0⟩ (.ofSeconds 1000) := by
    rw [Canned.ofPath_eq_clientAuth_iff.mpr hauth]
    exact nofun
  obtain ⟨-, hhash, -⟩ := written_eq_of_path_eq h h' hpath hs
  exact ⟨request, request', h, h', hpath, hs, hhash hauth (by decide +kernel)⟩

end Connection

end ScgiStub
