import ScgiStub.Probe
import ScgiStub.Proofs.Insertion
import ScgiStub.Proofs.Unsendable

/-! # A probe and a server

Whatever entries a probe is given, the server reads its request well. It may find the
headers or the body too large or the version wrong, and else it answers.
-/

namespace ScgiStub

variable {s : Settings} {env env' : Environment} {name value : String} {entries : List String}

namespace Probe

variable {p : Probe}

def lastValue? (entries : List String) (name : String) : Option String :=
  (entries.filterMap splitEntry?).reverse.lookup name

theorem name_ne_empty_of_split {entry : String} (h : splitEntry? entry = some (name, value)) :
    name ≠ "" := by
  unfold splitEntry? at h
  dsimp only at h
  split at h
  · cases h
  · cases h
  · next hne =>
    cases h
    intro hempty
    exact hne (by simpa using congrArg String.toList hempty)

theorem addEntries_cons_eq_ok_iff {entry : String} :
    addEntries env (entry :: entries) = .ok env' ↔
      ∃ name value, splitEntry? entry = some (name, value) ∧
        addEntries (env.insert name value) entries = .ok env' := by
  rw [addEntries]
  rcases splitEntry? entry with _ | ⟨name, value⟩ <;> simp

theorem addEntries_eq_ok_iff : addEntries env entries = .ok env' ↔
    ∃ pairs, List.Forall₂ (fun entry pair => splitEntry? entry = some pair) entries pairs ∧
      env' = env.insertAll pairs := by
  induction entries generalizing env with
  | nil => simp [addEntries, eq_comm]
  | cons entry entries ih =>
    simp only [addEntries_cons_eq_ok_iff, ih]
    constructor
    · rintro ⟨name, value, hentry, pairs, hpairs, rfl⟩
      exact ⟨(name, value) :: pairs, .cons hentry hpairs, rfl⟩
    · rintro ⟨pairs, hpairs, rfl⟩
      cases hpairs with
      | cons hentry hrest => exact ⟨_, _, hentry, _, hrest, rfl⟩

theorem filterMap_splitEntry? {pairs : List (String × String)}
    (h : List.Forall₂ (fun entry pair => splitEntry? entry = some pair) entries pairs) :
    entries.filterMap splitEntry? = pairs := by
  induction h with
  | nil => rfl
  | cons hentry _ ih => rw [List.filterMap_cons_some hentry, ih]

theorem name_ne_empty_of_forall₂ {pairs : List (String × String)}
    (h : List.Forall₂ (fun entry pair => splitEntry? entry = some pair) entries pairs) :
    "" ∉ pairs.map (·.1) := by
  induction h with
  | nil => simp
  | cons hentry _ ih =>
    rw [List.map_cons, List.mem_cons, not_or]
    exact ⟨(name_ne_empty_of_split hentry).symm, ih⟩

/-- The last entry with a name decides its value, and no entry brings an empty name. -/
theorem addEntries_ok (h : addEntries env entries = .ok env') (hname : "" ∉ env.names) :
    "" ∉ env'.names ∧ ∀ name, env'.get? name = (lastValue? entries name).or (env.get? name) := by
  obtain ⟨pairs, hpairs, rfl⟩ := addEntries_eq_ok_iff.mp h
  constructor
  · rw [Environment.mem_names_insertAll_iff, not_or]
    exact ⟨hname, name_ne_empty_of_forall₂ hpairs⟩
  · intro name
    rw [Environment.get?_insertAll, lastValue?, filterMap_splitEntry? hpairs]

theorem environment_ok (h : p.environment = .ok env) :
    "" ∉ env.names ∧
      env.get? HeaderName.scgi = some ((lastValue? p.entries HeaderName.scgi).getD "1") := by
  have hne : HeaderName.scgi ≠ HeaderName.pathInfo := by decide
  have hget : (Environment.ofPairs [(HeaderName.scgi, "1"), (HeaderName.pathInfo, p.pathInfo)]).get?
      HeaderName.scgi = some "1" := by
    simp [Environment.ofPairs, Environment.get?_insert, hne]
  have hnames : "" ∉ (Environment.ofPairs
      [(HeaderName.scgi, "1"), (HeaderName.pathInfo, p.pathInfo)]).names := by
    simp only [Environment.ofPairs, List.foldl_cons, List.foldl_nil,
      Environment.mem_names_insert_iff]
    decide
  obtain ⟨hempty, hvalue⟩ := addEntries_ok h hnames
  refine ⟨hempty, ?_⟩
  rw [hvalue, hget]
  cases lastValue? p.entries HeaderName.scgi <;> rfl

end Probe

namespace Request

variable {body : Bytes} {request : Request} {version : String}

/-- What a client sends is checked as to the size of its body and the version that it names. -/
theorem check_headers (he : request.env.entries = headers env body)
    (hbody : body.length < Numeral.bound) (hversion : env.get? HeaderName.scgi = some version) :
    s.check request.env =
      if s.maxBodySize < body.length then .error (.bodyTooLarge body.length s.maxBodySize)
      else if s.requireScgiHeader ∧ version ≠ "1" then .error (.unsupportedVersion version)
      else .ok () := by
  have hread : Numeral.read? (Utf8.encode (toString body.length)) = some body.length :=
    Numeral.read?_write hbody
  have hsize : request.env.checkContentLength s.maxBodySize =
      if s.maxBodySize < body.length then .error (.bodyTooLarge body.length s.maxBodySize)
      else .ok () := by
    simp only [Environment.checkContentLength, Environment.first?, he, headers, List.head?_cons,
      ne_eq, not_true_eq_false, if_false, hread]
  have hget : request.env.get? HeaderName.scgi = some version := by
    have hne : (HeaderName.scgi == HeaderName.contentLength) = false := by decide
    rw [← hversion, Environment.get?, he, headers, List.lookup_cons, hne]
    rfl
  rw [Settings.check, hsize]
  by_cases hmax : s.maxBodySize < body.length
  · simp [hmax]
  · by_cases hone : version = "1" <;> cases s.requireScgiHeader <;>
      simp [hmax, Environment.checkVersion, hget, hone]

end Request

namespace Connection.Stage

theorem ofOutcome_headersDone_of_pending {limit : Nat} {request : Request}
    (hsize : request.contentLength? = some request.body.length) :
    ofOutcome s (.ok .headersDone,
        { limit, phase := .body, pending := request.body, request := { env := request.env } }) =
      match s.check request.env with
      | .error refusal => .rejected (.refused refusal)
      | .ok () => .accepted request := by
  cases hc : s.check request.env with
  | error refusal => simp only [ofOutcome, hc]
  | ok =>
    let r : Reader :=
      { limit, phase := .body, pending := request.body, request := { env := request.env } }
    have hfeed := (Reader.feed_nil_done_iff (r := r) rfl rfl).mpr ⟨_, hsize, Nat.le_refl _, rfl⟩
    rw [ofOutcome_headersDone rfl hc, hfeed]
    simp only [ofOutcome, r, List.take_length]

end Connection.Stage

namespace Probe

variable {p : Probe} {bytes : Bytes} {chunks : List Bytes}

open Connection

/-- What a server makes of a request with a header block of this size and this version of
the protocol. -/
def verdict (s : Settings) (blockSize : Nat) (version : String) (request : Request) :
    Except Rejection Request :=
  if s.maxHeaderSize < blockSize then
    .error (.unreadable (.headersTooLarge blockSize s.maxHeaderSize))
  else if s.maxBodySize < request.body.length then
    .error (.refused (.bodyTooLarge request.body.length s.maxBodySize))
  else if s.requireScgiHeader ∧ version ≠ "1" then
    .error (.refused (.unsupportedVersion version))
  else .ok request

/-- The stage that a reading ends in with such an outcome. -/
def stageOf : Except Rejection Request → Stage
  | .error rejection => .rejected rejection
  | .ok request => .accepted request

theorem step_netstring {version : String} (request : Request)
    (henv : env.Sendable) (hversion : env.get? HeaderName.scgi = some version)
    (hbody : request.body.length < Numeral.bound)
    (he : request.env.entries = Request.headers env request.body)
    (hcount : (HeaderBlock.encode request.env.entries).length < 10 ^ 10) :
    Stage.step s (Stage.start s)
        (Request.netstring (HeaderBlock.encode request.env.entries) ++ request.body) =
      stageOf (verdict s (HeaderBlock.encode request.env.entries).length version request) := by
  rw [Stage.start, Stage.step, verdict]
  by_cases hlimit : s.maxHeaderSize < (HeaderBlock.encode request.env.entries).length
  · have hscan : Reader.scanLength s.maxHeaderSize (Request.netstring _ ++ request.body) = _ :=
      Reader.scanLength_netstring hcount
    rw [if_pos hlimit] at hscan ⊢
    simp only [Reader.feed, Reader.resume, Reader.takeLength, List.nil_append, hscan]
    rfl
  · have hfits : HeaderBlock.Fits ∅ request.env.entries := he ▸ Request.fits_headers henv
    rw [if_neg hlimit, Reader.feed_netstring _ hfits hcount (Nat.not_lt.mp hlimit)]
    have hread := Numeral.read?_write hbody
    have hsize : request.contentLength? = some request.body.length :=
      Request.contentLength?_of_first he hread
    rw [Connection.Stage.ofOutcome_headersDone_of_pending hsize,
      Request.check_headers he hbody hversion]
    split_ifs <;> rfl

/-- A request that a probe can send is read well by every server, in whatever pieces it
comes: the server finds the headers too large, or else the body, or else the last version
that the entries give, or it answers. As for any string of bytes in memory, the length of
the body is a machine word. -/
theorem run_probe (henv : p.environment = .ok env)
    (hbytes : Request.encode env (Utf8.encode p.body) = .ok bytes)
    (hbody : (Utf8.encode p.body).length < Numeral.bound)
    (hcount : (HeaderBlock.encode (Request.headers env (Utf8.encode p.body))).length < 10 ^ 10)
    (hc : chunks.flatten = bytes) :
    ∃ request : Request,
      request.env.entries =
        (HeaderName.contentLength, toString (Utf8.encode p.body).length) :: env.entries ∧
      request.body = Utf8.encode p.body ∧
      let outcome := verdict s (HeaderBlock.encode request.env.entries).length
        ((lastValue? p.entries HeaderName.scgi).getD "1") request
      let reply := fun now => match outcome with
        | .error rejection => Reply.line .badRequest rejection.message
        | .ok request => answer s now request
      Stage.run s chunks = stageOf outcome ∧
      ∀ now, (Stage.run s chunks).written s now = (reply now).wire ∧
        (0 < s.bufferSize → output s now bytes = (reply now).wire) := by
  obtain ⟨hname, hversion⟩ := environment_ok henv
  have hsend : env.Sendable := Request.sendable_iff.mpr ⟨⟨_, hbytes⟩, hname⟩
  obtain ⟨-, rfl⟩ := Request.encode_eq_ok_iff.mp hbytes
  let request : Request :=
    { env := ⟨Request.headers env (Utf8.encode p.body), (Request.fits_headers hsend).nodup⟩
      body := Utf8.encode p.body }
  refine ⟨request, rfl, rfl, ?_⟩
  intro outcome reply
  have hrun : Stage.run s chunks = stageOf outcome := by
    rw [Stage.run_eq_step, hc]
    exact step_netstring request hsend hversion hbody rfl hcount
  have hwritten : ∀ now, (Stage.run s chunks).written s now = (reply now).wire := by
    intro now
    rw [hrun]
    simp only [reply]
    cases outcome <;> rfl
  refine ⟨hrun, fun now => ⟨hwritten now, fun hb => ?_⟩⟩
  rw [output_eq_written, Stage.run_eq_step, flatten_cut hb, ← hc, ← Stage.run_eq_step, hwritten]

theorem run_probe_overridden_version :
    let p : Probe :=
      { pathInfo := "/é", entries := ["SCGI=2", "NOTE=a=b,c:d", "SCGI=1=1"], body := "hi" }
    ∃ env bytes, p.environment = .ok env ∧ Request.encode env (Utf8.encode p.body) = .ok bytes ∧
      Stage.run {} [bytes.take 1, bytes.drop 1] =
        .rejected (.refused (.unsupportedVersion "1=1")) := by
  intro p
  let env : Environment :=
    { entries := [("SCGI", "1=1"), ("PATH_INFO", "/é"), ("NOTE", "a=b,c:d")], nodup := by decide }
  have henv : p.environment = .ok env := by rfl
  obtain ⟨bytes, hbytes⟩ : ∃ bytes, Request.encode env (Utf8.encode p.body) = .ok bytes :=
    ⟨_, Request.encode_eq_ok_iff.mpr ⟨by decide, rfl⟩⟩
  have hlen : (HeaderBlock.encode (Request.headers env (Utf8.encode p.body))).length = 53 := by
    decide
  have hflat : [bytes.take 1, bytes.drop 1].flatten = bytes := by
    simpa using List.take_append_drop 1 bytes
  obtain ⟨request, he, hb, hrun, -⟩ := run_probe (s := {}) henv hbytes (by decide) (by omega) hflat
  have hblock : (HeaderBlock.encode request.env.entries).length = 53 := by rw [he]; exact hlen
  have hbody : request.body.length = 2 := by rw [hb]; decide
  have hversion : (lastValue? p.entries HeaderName.scgi).getD "1" = "1=1" := by decide
  refine ⟨env, bytes, henv, hbytes, ?_⟩
  rw [hrun, hversion]
  simp [verdict, hblock, hbody, stageOf]

end Probe

end ScgiStub
