import ScgiStub.Proofs.Probing

/-! # The environment that entries build

Entries of a probe may override each other and the two names that every probe sets. Names keep
the places of their first entries and get the values of their last. The first entry without a
name or a `=` is an error, and the size of the body is not for an entry to set.
-/

namespace ScgiStub

namespace Probe

variable {p : Probe} {env env' : Environment} {entry name value : String} {entries : List String}
  {pairs : List (String × String)} {failure : Failure}

def Named (entry : String) : Prop :=
  '=' ∈ entry.toList ∧ entry.toList.head? ≠ some '='

instance (entry : String) : Decidable (Named entry) :=
  inferInstanceAs (Decidable (_ ∧ _))

/-- The entry gives a name its value: its first `=` stands between them. -/
structure Gives (entry name value : String) : Prop where
  eq : entry = name ++ "=" ++ value
  no_equals : '=' ∉ name.toList
  name_ne : name ≠ ""

/-- What every probe sets, unless an entry says otherwise. -/
def preset (p : Probe) : Environment :=
  .ofPairs [(HeaderName.scgi, "1"), (HeaderName.pathInfo, p.pathInfo)]

/-! ## One entry -/

theorem toList_spelled (name value : String) :
    (name ++ "=" ++ value).toList = name.toList ++ '=' :: value.toList := by
  simp

theorem Gives.named (h : Gives entry name value) : Named entry := by
  obtain ⟨rfl, hno, hne⟩ := h
  obtain ⟨c, cs, hname⟩ := List.exists_cons_of_ne_nil (mt String.toList_eq_nil_iff.mp hne)
  unfold Named
  rw [toList_spelled, hname]
  constructor
  · simp
  · rintro ⟨⟩
    exact hno (hname ▸ List.mem_cons_self)

theorem Named.exists_gives (h : Named entry) : ∃ name value, Gives entry name value := by
  obtain ⟨hmem, hhead⟩ := h
  obtain ⟨front, back, hentry, hfront⟩ := List.eq_append_cons_of_mem hmem
  refine ⟨String.ofList front, String.ofList back, ?_, ?_, ?_⟩
  · rw [← String.toList_inj, toList_spelled, hentry, String.toList_ofList, String.toList_ofList]
  · rwa [String.toList_ofList]
  · rintro hempty
    obtain rfl : front = [] := by simpa using congrArg String.toList hempty
    exact hhead (by rw [hentry]; rfl)

theorem Gives.split_eq (h : Gives entry name value) :
    splitEntry? entry = some (name, value) := by
  obtain ⟨rfl, hno, hne⟩ := h
  have hname : ∀ c ∈ name.toList, decide (c ≠ '=') := by
    intro c hc
    exact decide_eq_true fun he => hno (he ▸ hc)
  obtain ⟨c, cs, hcs⟩ := List.exists_cons_of_ne_nil (mt String.toList_eq_nil_iff.mp hne)
  have htake : (name ++ "=" ++ value).toList.takeWhile (· ≠ '=') = c :: cs := by
    rw [toList_spelled, List.takeWhile_append_of_pos hname, hcs]
    simp
  have hdrop : (name ++ "=" ++ value).toList.dropWhile (· ≠ '=') = '=' :: value.toList := by
    rw [toList_spelled, List.dropWhile_append_of_pos hname]
    simp
  simp only [htake, hdrop, splitEntry?]
  rw [← hcs, String.ofList_toList, String.ofList_toList]

theorem splitEntry?_of_not_named (h : ¬ Named entry) : splitEntry? entry = none := by
  rcases not_and_or.mp h with hno | hhead
  · have hdrop : entry.toList.dropWhile (· ≠ '=') = [] := by
      apply List.dropWhile_eq_nil_iff.mpr
      intro c hc
      exact decide_eq_true fun he => hno (he ▸ hc)
    simp only [hdrop, splitEntry?]
    split
    · rfl
    · rfl
    · next heq _ => cases heq
  · obtain ⟨rest, hrest⟩ := List.head?_eq_some_iff.mp (not_not.mp hhead)
    have htake : entry.toList.takeWhile (· ≠ '=') = [] := by
      rw [hrest]
      simp
    simp only [htake, splitEntry?]

theorem splitEntry?_eq_none_iff : splitEntry? entry = none ↔ ¬ Named entry := by
  constructor
  · intro h hn
    obtain ⟨name, value, hg⟩ := hn.exists_gives
    cases hg.split_eq.symm.trans h
  · exact splitEntry?_of_not_named

theorem splitEntry?_eq_some_iff :
    splitEntry? entry = some (name, value) ↔ Gives entry name value := by
  constructor
  · intro h
    have hn : Named entry := by
      by_contra hn
      cases (splitEntry?_of_not_named hn).symm.trans h
    obtain ⟨name', value', hg⟩ := hn.exists_gives
    cases hg.split_eq.symm.trans h
    exact hg
  · exact Gives.split_eq

/-! ## Rows of entries -/

theorem forall₂_splitEntry?_iff :
    List.Forall₂ (fun entry pair => splitEntry? entry = some pair) entries pairs ↔
      List.Forall₂ (fun entry pair => Gives entry pair.1 pair.2) entries pairs := by
  have hrel (entry : String) (pair : String × String) :
      splitEntry? entry = some pair ↔ Gives entry pair.1 pair.2 := splitEntry?_eq_some_iff
  simp only [hrel]

theorem addEntries_eq_error_iff : addEntries env entries = .error failure ↔
    ∃ before entry after, entries = before ++ entry :: after ∧ (∀ e ∈ before, Named e) ∧
      ¬ Named entry ∧ failure = .envArgument entry := by
  induction entries generalizing env with
  | nil => simp [addEntries]
  | cons first entries ih =>
    unfold addEntries
    rcases hsplit : splitEntry? first with _ | ⟨name, value⟩
    · have hfirst := splitEntry?_eq_none_iff.mp hsplit
      constructor
      · rintro ⟨⟩
        exact ⟨[], first, entries, rfl, List.forall_mem_nil Named, hfirst, rfl⟩
      · rintro ⟨before, entry, after, heq, hbefore, -, rfl⟩
        cases before with
        | nil =>
          obtain ⟨rfl, -⟩ := List.cons.inj heq
          rfl
        | cons e before =>
          obtain ⟨rfl, -⟩ := List.cons.inj heq
          exact absurd (hbefore _ List.mem_cons_self) hfirst
    · have hfirst := (splitEntry?_eq_some_iff.mp hsplit).named
      simp only [ih]
      constructor
      · rintro ⟨before, entry, after, rfl, hbefore, hentry, rfl⟩
        exact ⟨first :: before, entry, after, rfl, List.forall_mem_cons.mpr ⟨hfirst, hbefore⟩,
          hentry, rfl⟩
      · rintro ⟨before, entry, after, heq, hbefore, hentry, rfl⟩
        cases before with
        | nil =>
          obtain ⟨rfl, -⟩ := List.cons.inj heq
          exact absurd hfirst hentry
        | cons e before =>
          obtain ⟨rfl, rfl⟩ := List.cons.inj heq
          exact ⟨before, entry, after, rfl, (List.forall_mem_cons.mp hbefore).2, hentry, rfl⟩

theorem exists_addEntries_eq_ok_iff :
    (∃ env', addEntries env entries = .ok env') ↔ ∀ entry ∈ entries, Named entry := by
  constructor
  · rintro ⟨env', h⟩
    obtain ⟨pairs, hpairs, -⟩ := addEntries_eq_ok_iff.mp h
    rw [forall₂_splitEntry?_iff] at hpairs
    clear h
    induction hpairs with
    | nil => exact nofun
    | cons hentry _ ih => exact List.forall_mem_cons.mpr ⟨hentry.named, ih⟩
  · intro h
    cases hadd : addEntries env entries with
    | ok env' => exact ⟨env', rfl⟩
    | error failure =>
      obtain ⟨before, entry, after, rfl, -, hentry, -⟩ := addEntries_eq_error_iff.mp hadd
      exact absurd (h entry (by simp)) hentry

/-! ## The environment of a probe -/

theorem entries_preset (p : Probe) :
    p.preset.entries = [(HeaderName.scgi, "1"), (HeaderName.pathInfo, p.pathInfo)] := by
  have hne : HeaderName.scgi ≠ HeaderName.pathInfo := by decide
  simp [preset, Environment.ofPairs, Entries.insert, hne]

theorem names_preset (p : Probe) : p.preset.names = [HeaderName.scgi, HeaderName.pathInfo] := by
  rw [Environment.names, entries_preset]
  rfl

/-- A size that an entry sets is refused, whatever the body, and nothing is sent. -/
theorem send_of_contentLength (h : p.environment = .ok env)
    (hm : HeaderName.contentLength ∈ env.names) :
    (∀ body, Request.encode env body = .error .contentLengthGiven) ∧
      ∀ peer, p.send peer = ⟨none, .error (.client (.unsendable .contentLengthGiven))⟩ := by
  have hencode (body : Bytes) : Request.encode env body = .error .contentLengthGiven :=
    if_pos (Environment.contains_iff.mpr hm)
  refine ⟨hencode, fun peer => ?_⟩
  simp only [send, request, h, hencode]
  rfl

theorem exists_insertAll (h : p.environment = .ok env) :
    ∃ pairs, List.Forall₂ (fun entry pair => Gives entry pair.1 pair.2) p.entries pairs ∧
      env = p.preset.insertAll pairs := by
  obtain ⟨pairs, hpairs, rfl⟩ := addEntries_eq_ok_iff.mp h
  exact ⟨pairs, forall₂_splitEntry?_iff.mp hpairs, rfl⟩

theorem mem_names_of_gives
    (hpairs : List.Forall₂ (fun entry pair => Gives entry pair.1 pair.2) entries pairs)
    (hm : entry ∈ entries) (hg : Gives entry name value) : name ∈ pairs.map (·.1) := by
  rw [← filterMap_splitEntry? (forall₂_splitEntry?_iff.mpr hpairs), List.mem_map]
  exact ⟨(name, value), List.mem_filterMap.mpr ⟨entry, hm, hg.split_eq⟩, rfl⟩

/-- There is an environment exactly if every entry has a name, and else the first that has none
is reported. The two names that every probe sets come first, then the other names in the order
of their first entries. The last entry with a name gives the value, and the two names have
their own values unless an entry names them. With the size of the body among the names, the
request is refused, and no probe with such an entry sends anything. -/
theorem environment_iff_named (p : Probe) :
    ((∃ env, p.environment = .ok env) ↔ ∀ entry ∈ p.entries, Named entry) ∧
    (∀ failure, p.environment = .error failure ↔
      ∃ before entry after, p.entries = before ++ entry :: after ∧ (∀ e ∈ before, Named e) ∧
        ¬ Named entry ∧ failure = .envArgument entry) ∧
    (∀ env, p.environment = .ok env →
      ∃ pairs, List.Forall₂ (fun entry pair => Gives entry pair.1 pair.2) p.entries pairs ∧
        let others := (pairs.map (·.1)).filter (· ∉ [HeaderName.scgi, HeaderName.pathInfo])
        env.names = HeaderName.scgi :: HeaderName.pathInfo :: others.eraseDups ∧
        env.names.Nodup ∧
        (∀ name value, (name, value) ∈ env.entries ↔
          (∃ before after, pairs = before ++ (name, value) :: after ∧ name ∉ after.map (·.1)) ∨
          name ∉ pairs.map (·.1) ∧
            (name = HeaderName.scgi ∧ value = "1" ∨
              name = HeaderName.pathInfo ∧ value = p.pathInfo)) ∧
        (HeaderName.contentLength ∈ pairs.map (·.1) →
          (∀ body, Request.encode env body = .error .contentLengthGiven) ∧
            ∀ peer, p.send peer =
              ⟨none, .error (.client (.unsendable .contentLengthGiven))⟩)) ∧
    ∀ entry ∈ p.entries, ∀ value, Gives entry HeaderName.contentLength value →
      ∀ peer, (p.send peer).sent? = none := by
  refine ⟨exists_addEntries_eq_ok_iff, fun failure => addEntries_eq_error_iff, ?_, ?_⟩
  · intro env h
    obtain ⟨pairs, hpairs, rfl⟩ := exists_insertAll h
    refine ⟨pairs, hpairs, ?_, (p.preset.insertAll pairs).nodup, ?_, ?_⟩
    · rw [Environment.names_insertAll, names_preset]
      rfl
    · intro name value
      rw [Environment.mem_entries_insertAll_iff, entries_preset]
      simp
    · intro hm
      apply send_of_contentLength h
      exact Environment.mem_names_insertAll_iff.mpr (.inr hm)
  · intro entry hm value hg peer
    cases h : p.environment with
    | error failure => simp only [send, request, h]
    | ok env =>
      obtain ⟨pairs, hpairs, rfl⟩ := exists_insertAll h
      have hname := mem_names_of_gives hpairs hm hg
      rw [(send_of_contentLength h (Environment.mem_names_insertAll_iff.mpr (.inr hname))).2]

theorem environment_iff_named_overridden :
    let p : Probe := { pathInfo := "/", entries := ["B=1", "SCGI=2", "B==x=", "CONTENT_LENGTH=3"] }
    ∃ env, p.environment = .ok env ∧
      env.names = ["SCGI", "PATH_INFO", "B", "CONTENT_LENGTH"] ∧ ("B", "=x=") ∈ env.entries ∧
      ∀ peer, p.send peer = ⟨none, .error (.client (.unsendable .contentLengthGiven))⟩ := by
  intro p
  obtain ⟨hok, -, henv, -⟩ := environment_iff_named p
  obtain ⟨env, h⟩ := hok.mpr (by decide +kernel)
  obtain ⟨pairs, hpairs, hnames, -, hvalues, hsend⟩ := henv env h
  obtain rfl : [("B", "1"), ("SCGI", "2"), ("B", "=x="), ("CONTENT_LENGTH", "3")] = pairs := by
    rw [← filterMap_splitEntry? (forall₂_splitEntry?_iff.mpr hpairs)]
    rfl
  refine ⟨env, h, hnames.trans (by decide), ?_, (hsend (by decide)).2⟩
  rw [hvalues]
  exact .inl ⟨[("B", "1"), ("SCGI", "2")], [("CONTENT_LENGTH", "3")], rfl, by decide⟩

end Probe

end ScgiStub
