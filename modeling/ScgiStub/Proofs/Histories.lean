import Mathlib.Data.List.Perm.Subperm
import ScgiStub.Proofs.Echo
import ScgiStub.Proofs.Insertion

/-! # Histories of an environment

An environment comes from the pairs that were collected last and those inserted after that. Its
names stand in the order in which they first came, and giving one again moves nothing. The order
is no part of what makes two environments agree, but it shows.
-/

namespace ScgiStub

namespace Environment

inductive Change where
  | insert (name value : String)
  | collect (pairs : List (String × String))

def Change.apply (env : Environment) : Change → Environment
  | insert name value => env.insert name value
  | collect pairs => .ofPairs pairs

/-- The environment that a row of changes makes of the empty one. -/
def made (changes : List Change) : Environment :=
  changes.foldl Change.apply ∅

/-- The pairs that have come since the last start, with `pairs` before the change. -/
def Change.add (pairs : List (String × String)) : Change → List (String × String)
  | insert name value => pairs ++ [(name, value)]
  | collect pairs => pairs

/-- The pairs that a row of changes gave since it last started over. -/
def given (changes : List Change) : List (String × String) :=
  changes.foldl Change.add []

variable {env other : Environment} {name value old : String}
  {pairs before after rest : List (String × String)} {first second : String × String}

/-! ## The pairs that count -/

theorem apply_ofPairs (pairs : List (String × String)) (change : Change) :
    change.apply (ofPairs pairs) = ofPairs (change.add pairs) := by
  cases change with
  | insert name value =>
    rw [Change.apply, Change.add]
    simp only [ofPairs, List.foldl_append, List.foldl_cons, List.foldl_nil]
  | collect => rfl

theorem foldl_apply_ofPairs (pairs : List (String × String)) (changes : List Change) :
    changes.foldl Change.apply (ofPairs pairs) = ofPairs (changes.foldl Change.add pairs) := by
  induction changes generalizing pairs with
  | nil => rfl
  | cons change changes ih => rw [List.foldl_cons, apply_ofPairs, ih, List.foldl_cons]

/-- Of all that was done, the pairs since the last start count. -/
theorem made_eq_ofPairs (changes : List Change) : made changes = ofPairs (given changes) :=
  foldl_apply_ofPairs [] changes

theorem names_ofPairs (pairs : List (String × String)) :
    (ofPairs pairs).names = (pairs.map (·.1)).eraseDups := by
  have hnames : (ofPairs pairs).names =
      [] ++ ((pairs.map (·.1)).filter (· ∉ (∅ : Environment).names)).eraseDups := names_insertAll
  have hall : (pairs.map (·.1)).filter (· ∉ (∅ : Environment).names) = pairs.map (·.1) := by
    apply List.filter_eq_self.mpr
    exact fun _ _ => rfl
  rwa [hall] at hnames

theorem mem_entries_ofPairs_iff : (name, value) ∈ (ofPairs pairs).entries ↔
    ∃ before after, pairs = before ++ (name, value) :: after ∧ name ∉ after.map (·.1) := by
  have hempty : (name, value) ∉ (∅ : Environment).entries := List.not_mem_nil
  apply mem_entries_insertAll_iff.trans
  simp only [hempty, and_false, or_false]

theorem entries_ofPairs_of_nodup (h : (pairs.map (·.1)).Nodup) :
    (ofPairs pairs).entries = pairs :=
  entries_insertAll_of_nodup h

/-! ## One insertion -/

theorem getThenInsert?_concat (changes : List Change) (name value : String) :
    ((made changes).getThenInsert? name value).2 = made (changes ++ [.insert name value]) := by
  simp only [getThenInsert?_eq, made, List.foldl_append, List.foldl_cons, List.foldl_nil,
    Change.apply]

theorem getThenInsert?_fst_eq_some_iff :
    (env.getThenInsert? name value).1 = some old ↔ (name, old) ∈ env.entries := by
  rw [getThenInsert?_eq]
  exact get?_eq_some_iff

theorem entries_getThenInsert?_of_eq (h : env.entries = before ++ (name, old) :: after) :
    (env.getThenInsert? name value).2.entries = before ++ (name, value) :: after := by
  have hnodup := env.nodup
  rw [h] at hnodup
  rw [getThenInsert?_eq, entries_insert, h, Entries.insert_of_eq hnodup]

theorem entries_getThenInsert?_of_not_mem (h : name ∉ env.names) :
    (env.getThenInsert? name value).2.entries = env.entries ++ [(name, value)] := by
  rw [getThenInsert?_eq, entries_insert, Entries.insert_of_not_mem h]

/-! ## Agreement -/

theorem nodup_entries (env : Environment) : env.entries.Nodup :=
  .of_map _ env.nodup

theorem agrees_iff_perm : env.agrees other ↔ env.entries.Perm other.entries := by
  simp only [agrees, size, Bool.and_eq_true, beq_iff_eq, List.all_eq_true, get?_eq_some_iff]
  constructor
  · rintro ⟨hsize, hmem⟩
    apply (List.subperm_of_subset env.nodup_entries hmem).perm_of_length_le
    exact hsize.ge
  · intro h
    exact ⟨h.length_eq, fun pair hp => h.subset hp⟩

theorem agrees_iff_get?_eq : env.agrees other ↔ ∀ name, env.get? name = other.get? name := by
  rw [agrees_iff_perm, List.perm_ext_iff_of_nodup env.nodup_entries other.nodup_entries]
  constructor
  · intro h name
    ext value
    rw [get?_eq_some_iff, get?_eq_some_iff, h]
  · rintro h ⟨name, value⟩
    rw [← get?_eq_some_iff, ← get?_eq_some_iff, h]

theorem exists_swapped (h : env.entries = first :: second :: rest) : ∃ changes,
    env.agrees (made changes) ∧ (made changes).entries = second :: first :: rest ∧
      (made changes).first? ≠ env.first? ∧ (env.Bare → (made changes).text ≠ env.text) := by
  have hswap : env.entries.Perm (second :: first :: rest) := by
    rw [h]
    exact .swap second first rest
  have hentries :
      (made [.collect (second :: first :: rest)]).entries = second :: first :: rest := by
    apply entries_ofPairs_of_nodup
    exact (hswap.map _).nodup env.nodup
  have hne : second ≠ first := by
    have hnodup := env.nodup_entries
    rw [h, List.nodup_cons] at hnodup
    rintro rfl
    exact hnodup.1 List.mem_cons_self
  refine ⟨_, ?_, hentries, ?_, fun hbare htext => ?_⟩
  · rwa [agrees_iff_perm, hentries]
  · simp only [first?, hentries, h, List.head?_cons]
    exact fun heq => hne (Option.some.inj heq)
  · have hbare' : (made [.collect (second :: first :: rest)]).Bare := by
      intro pair hp
      rw [hentries] at hp
      exact hbare pair (hswap.symm.subset hp)
    have heq := entries_eq_of_encode_text_eq hbare' hbare (congrArg Utf8.encode htext)
    rw [hentries, h] at heq
    exact hne (List.cons.inj heq).1

/-- However an environment was made, its names differ and stand in the order in which they first
came since it last started over, each with the value that came last. What it can be asked is
answered by its entries in their order. An insertion gives back the value that the name had, if
it had one, and puts the new value in its place and changes no other entry; a new name goes
behind the others. Two environments agree exactly if they give each name the same value, and so
they may agree and still differ in order, in what is first, and in how they look. -/
theorem made_in_order (changes : List Change) :
    let env := made changes
    let pairs := given changes
    (env.names.Nodup ∧ env.names = (pairs.map (·.1)).eraseDups ∧
      ∀ name value, (name, value) ∈ env.entries ↔
        ∃ before after, pairs = before ++ (name, value) :: after ∧ name ∉ after.map (·.1)) ∧
    ((∀ name value, env.get? name = some value ↔ (name, value) ∈ env.entries) ∧
      (∀ name, env.contains name ↔ name ∈ env.names) ∧
      (∀ pair, env.first? = some pair ↔ ∃ rest, env.entries = pair :: rest) ∧
      env.size = env.entries.length ∧ (env.isEmpty ↔ env.entries = [])) ∧
    (∀ name value,
      let result := env.getThenInsert? name value
      result.2 = made (changes ++ [.insert name value]) ∧
      (∀ old, result.1 = some old ↔ (name, old) ∈ env.entries) ∧
      (∀ before old after, env.entries = before ++ (name, old) :: after →
        result.2.entries = before ++ (name, value) :: after) ∧
      (name ∉ env.names → result.2.entries = env.entries ++ [(name, value)])) ∧
    (∀ other, env.agrees other ↔ ∀ name, env.get? name = other.get? name) ∧
    ∀ first second rest, env.entries = first :: second :: rest → ∃ changes',
      let other := made changes'
      env.agrees other ∧ other.entries = second :: first :: rest ∧ other.first? ≠ env.first? ∧
        (env.Bare → other.text ≠ env.text) := by
  intro env pairs
  have hmade : env = ofPairs pairs := made_eq_ofPairs changes
  refine ⟨⟨env.nodup, ?_, ?_⟩, ⟨?_, ?_, ?_, rfl, List.isEmpty_iff⟩, ?_, ?_, ?_⟩
  · rw [hmade, names_ofPairs]
  · intro name value
    rw [hmade, mem_entries_ofPairs_iff]
  · exact fun name value => get?_eq_some_iff
  · exact fun name => contains_iff
  · exact fun pair => List.head?_eq_some_iff
  · intro name value result
    exact ⟨getThenInsert?_concat changes name value, fun old => getThenInsert?_fst_eq_some_iff,
      fun before old after h => entries_getThenInsert?_of_eq h,
      fun h => entries_getThenInsert?_of_not_mem h⟩
  · exact fun other => agrees_iff_get?_eq
  · exact fun first second rest h => exists_swapped h

theorem made_in_order_given_again :
    let changes : List Change :=
      [.insert "Z" "0", .collect [("A", "1"), ("B", "2"), ("A", "3")], .insert "B" "4"]
    let env := made changes
    env.names = ["A", "B"] ∧ env.entries = [("A", "3"), ("B", "4")] ∧
      (env.getThenInsert? "A" "5").1 = some "3" ∧
      (env.getThenInsert? "A" "5").2.entries = [("A", "5"), ("B", "4")] ∧
      ∃ changes', env.agrees (made changes') ∧ (made changes').first? ≠ env.first? ∧
        (made changes').text ≠ env.text := by
  intro changes env
  obtain ⟨⟨-, hnames, -⟩, -, hinsert, -, hswap⟩ := made_in_order changes
  have hentries : env.entries = [("A", "3"), ("B", "4")] := by decide
  obtain ⟨-, hold, hplace, -⟩ := hinsert "A" "5"
  obtain ⟨changes', hagrees, -, hfirst, htext⟩ := hswap _ _ _ hentries
  refine ⟨hnames.trans (by decide), hentries, (hold "3").mpr ?_, ?_, changes', hagrees, hfirst, ?_⟩
  · rw [hentries]
    decide
  · exact hplace [] "3" [("B", "4")] hentries
  · exact htext (by decide)

end Environment

end ScgiStub
