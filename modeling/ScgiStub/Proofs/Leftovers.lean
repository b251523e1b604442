import Mathlib.Algebra.Group.Nat.Even
import ScgiStub.Proofs.WrongBlocks

/-! # What a header block does to an environment

A block adds all its pairs, or those before the first that is wrong. A name that is
repeated has its new value by then, at the place it had.
-/

namespace ScgiStub

namespace HeaderBlock

/-- What a row of fields that goes wrong at its start makes of the entries: the one of a
repeated name takes the new value where it stands, and nothing else changes. -/
inductive Leaves (entries : List (String × String)) :
    List Bytes → Fault → List (String × String) → Prop
  | repeated {name value old before after fields} : entries = before ++ (name, old) :: after →
      Leaves entries (Utf8.encode name :: Utf8.encode value :: fields) (.duplicate name)
        (before ++ (name, value) :: after)
  | other {tail fault} : (∀ name, fault ≠ .duplicate name) → Leaves entries tail fault entries

variable {env env' : Environment} {entries entries' : List (String × String)}
  {name value : String} {fields tail : List Bytes} {fault : Fault}

theorem exists_fieldsOf_iff : ∀ {fields : List Bytes}, (∃ pairs, fields = fieldsOf pairs) ↔
    Even fields.length ∧ ∀ f ∈ fields, ∃ text, f = Utf8.encode text
  | [] => by
    constructor
    · rintro -
      simp
    · rintro -
      exact ⟨[], rfl⟩
  | [_] => by
    constructor
    · rintro ⟨_ | ⟨p, pairs⟩, h⟩ <;> cases h
    · rintro ⟨h, -⟩
      exact absurd h (by simp)
  | first :: second :: fields => by
    have hparity : Even (first :: second :: fields).length ↔ Even fields.length := by
      simp [Nat.even_add_one]
    rw [hparity, List.forall_mem_cons, List.forall_mem_cons]
    constructor
    · rintro ⟨_ | ⟨⟨name, value⟩, pairs⟩, h⟩
      · cases h
      · obtain ⟨rfl, rfl, rfl⟩ : first = Utf8.encode name ∧ second = Utf8.encode value ∧
            fields = fieldsOf pairs := by simpa [fieldsOf] using h
        obtain ⟨heven, htexts⟩ := exists_fieldsOf_iff.mp ⟨pairs, rfl⟩
        exact ⟨heven, ⟨name, rfl⟩, ⟨value, rfl⟩, htexts⟩
    · rintro ⟨heven, ⟨name, rfl⟩, ⟨value, rfl⟩, htexts⟩
      obtain ⟨pairs, rfl⟩ := exists_fieldsOf_iff.mpr ⟨heven, htexts⟩
      exact ⟨(name, value) :: pairs, rfl⟩

theorem leaves_iff_of_ne (h : ∀ name, fault ≠ .duplicate name) :
    Leaves entries tail fault entries' ↔ entries = entries' := by
  constructor
  · rintro (_ | _)
    · exact absurd rfl (h _)
    · rfl
  · rintro rfl
    exact .other h

theorem leaves_duplicate_iff (hnodup : (entries.map (·.1)).Nodup)
    (hm : name ∈ entries.map (·.1)) :
    Leaves entries (Utf8.encode name :: Utf8.encode value :: fields) (.duplicate name) entries' ↔
      Entries.insert name value entries = entries' := by
  have hinsert : ∀ {before after old v}, entries = before ++ (name, old) :: after →
      Entries.insert name v entries = before ++ (name, v) :: after := by
    rintro before after old v rfl
    exact Entries.insert_of_eq hnodup
  constructor
  · intro h
    generalize hfirst : Utf8.encode name = first at h
    generalize hsecond : Utf8.encode value = second at h
    cases h with
    | repeated hentries =>
      obtain rfl := Utf8.encode_injective hsecond
      exact hinsert hentries
    | other hne => exact absurd rfl (hne name)
  · rintro rfl
    obtain ⟨⟨_, old⟩, hp, rfl⟩ := List.mem_map.mp hm
    obtain ⟨before, after, hentries⟩ := List.append_of_mem hp
    rw [hinsert hentries]
    exact .repeated hentries

theorem addPair_leaves_iff {name value : Bytes} (h : WrongPair env.names name value fault) :
    addPair env name value = (.error fault, env') ↔
      Leaves env.entries (name :: value :: fields) fault env'.entries := by
  have herror := addPair_error_of_wrong h
  rw [Prod.ext_iff, and_iff_right herror]
  cases h with
  | unnamed =>
    rw [leaves_iff_of_ne (by simp), ← Environment.ext_iff]
    simp [addPair]
  | nameNotText hn =>
    rw [leaves_iff_of_ne (by simp), ← Environment.ext_iff]
    simp only [addPair, hn]
    split <;> rfl
  | valueNotText hne hv =>
    rw [leaves_iff_of_ne (by simp), ← Environment.ext_iff]
    simp only [addPair, Utf8.decode_encode, hv]
    split <;> rfl
  | duplicate hne hm =>
    rw [leaves_duplicate_iff env.nodup hm, ← Environment.entries_insert, ← Environment.ext_iff]
    simp [addPair, Utf8.encode_eq_nil_iff, hne]

theorem addFields_leaves_iff (h : WrongRow env.names tail fault) :
    addFields env tail = (.error fault, env') ↔ Leaves env.entries tail fault env'.entries := by
  cases h with
  | unpaired =>
    rw [leaves_iff_of_ne (by simp), ← Environment.ext_iff]
    simp [addFields]
  | @pair name value fields _ hpair =>
    rw [← addPair_leaves_iff hpair, addFields]
    have herror := addPair_error_of_wrong hpair
    rcases hp : addPair env name value with ⟨_ | _, env₁⟩
    · rfl
    · rw [hp] at herror
      cases herror

/-- A row of fields is refused for what is wrong behind the longest row of pairs that can
be added, and those pairs have been added then. -/
theorem addFields_eq_error_iff : addFields env fields = (.error fault, env') ↔
    ∃ pairs tail, fields = fieldsOf pairs ++ tail ∧ (∀ p ∈ pairs, p.1 ≠ "") ∧
      (env.names ++ pairs.map (·.1)).Nodup ∧ WrongRow (env.names ++ pairs.map (·.1)) tail fault ∧
      Leaves (env.entries ++ pairs) tail fault env'.entries := by
  constructor
  · intro h
    obtain ⟨pairs, tail, rfl, hnames, hnodup, hwrong⟩ :=
      addFields_error_iff.mp (congrArg Prod.fst h)
    obtain ⟨env₁, hentries, henv₁, hadded⟩ := exists_added hnames hnodup
    refine ⟨pairs, tail, rfl, hnames, hnodup, hwrong, ?_⟩
    rw [hadded] at h
    rw [← henv₁] at hwrong
    rw [← hentries]
    exact (addFields_leaves_iff hwrong).mp h
  · rintro ⟨pairs, tail, rfl, hnames, hnodup, hwrong, hleaves⟩
    obtain ⟨env₁, hentries, henv₁, hadded⟩ := exists_added hnames hnodup
    rw [← henv₁] at hwrong
    rw [← hentries] at hleaves
    rw [hadded]
    exact (addFields_leaves_iff hwrong).mpr hleaves

/-- What a block does to an environment. The empty block does nothing, and neither does one
that does not end with a NUL. Any other is a row of fields, each ended by a NUL: it is
accepted exactly if the fields are those of pairs with new names, and adds these. If not, it
is refused for the first that goes wrong, and the pairs in front of that have been added. -/
theorem decode_adds_until_wrong (env : Environment) (block : Bytes) :
    (block = [] → decode env block = (.ok (), env)) ∧
    (¬ Ended block → decode env block = (.error .malformed, env)) ∧
    (Ended block → ∃ fields : List Bytes, block = fields.flatMap (· ++ [0]) ∧
      ∀ f ∈ fields, (0 : UInt8) ∉ f) ∧
    ∀ fields : List Bytes, block = fields.flatMap (· ++ [0]) → (∀ f ∈ fields, (0 : UInt8) ∉ f) →
      ((∃ pairs, fields = fieldsOf pairs) ↔
        Even fields.length ∧ ∀ f ∈ fields, ∃ text, f = Utf8.encode text) ∧
      (∀ env', decode env block = (.ok (), env') ↔
        ∃ pairs, fields = fieldsOf pairs ∧ (∀ p ∈ pairs, p.1 ≠ "") ∧
          (env.names ++ pairs.map (·.1)).Nodup ∧ env'.entries = env.entries ++ pairs) ∧
      ∀ fault env', decode env block = (.error fault, env') ↔
        ∃ pairs tail, fields = fieldsOf pairs ++ tail ∧ (∀ p ∈ pairs, p.1 ≠ "") ∧
          (env.names ++ pairs.map (·.1)).Nodup ∧
          WrongRow (env.names ++ pairs.map (·.1)) tail fault ∧
          Leaves (env.entries ++ pairs) tail fault env'.entries := by
  refine ⟨?_, ?_, ?_, ?_⟩
  · rintro rfl
    rfl
  · intro hend
    exact decode_of_not_ended hend
  · intro hend
    obtain ⟨hblock, hzero, -⟩ := split_eq_iff.mp (Prod.ext rfl (ended_iff.mp hend) :
      split block = ((split block).1, []))
    exact ⟨_, by simpa using hblock, hzero⟩
  · intro fields hblock hzero
    have hsplit : split block = (fields, []) :=
      split_eq_iff.mpr ⟨by simpa using hblock, hzero, by simp⟩
    rw [decode_of_split hsplit]
    exact ⟨exists_fieldsOf_iff, fun _ => addFields_ok_iff, fun _ _ => addFields_eq_error_iff⟩

theorem decode_adds_until_repeated :
    let env := Environment.ofPairs [("A", "0"), ("Z", "9")]
    let fields := fieldsOf [("B", "1"), ("A", "2"), ("", "3")]
    let block := fields.flatMap (· ++ [0])
    Ended block ∧ (∀ f ∈ fields, (0 : UInt8) ∉ f) ∧
      ∃ env', decode env block = (.error (.duplicate "A"), env') ∧
        env'.entries = [("A", "2"), ("Z", "9"), ("B", "1")] := by
  intro env fields block
  have hzero : ∀ f ∈ fields, (0 : UInt8) ∉ f := by decide
  obtain ⟨-, -, -, hfields⟩ := decode_adds_until_wrong env block
  obtain ⟨-, -, herror⟩ := hfields fields rfl hzero
  let env' : Environment := ⟨[("A", "2"), ("Z", "9"), ("B", "1")], by decide⟩
  have hentries : env.entries ++ [("B", "1")] = [] ++ ("A", "0") :: [("Z", "9"), ("B", "1")] := rfl
  have hwrong : WrongPair (env.names ++ ["B"]) (Utf8.encode "A") (Utf8.encode "2")
      (.duplicate "A") := .duplicate (by decide) (by decide)
  have hleaves : Leaves (env.entries ++ [("B", "1")]) (fieldsOf [("A", "2"), ("", "3")])
      (.duplicate "A") env'.entries := .repeated hentries
  refine ⟨ended_flatMap fields, hzero, env', ?_, rfl⟩
  exact (herror _ env').mpr ⟨[("B", "1")], _, rfl, by decide, by decide, .pair hwrong, hleaves⟩

end HeaderBlock

end ScgiStub
