/-! # The request environment

A table of names and values in the order in which the names first came. Giving
a name again replaces its value and moves nothing.
-/

namespace ScgiStub

namespace HeaderName

def contentLength : String := "CONTENT_LENGTH"

def pathInfo : String := "PATH_INFO"

def scgi : String := "SCGI"

def clientHash : String := "TLS_CLIENT_HASH"

end HeaderName

namespace Entries

/-- The entries with `value` under `name`, at its old place or at the end. -/
def insert (name value : String) : List (String × String) → List (String × String)
  | [] => [(name, value)]
  | (other, old) :: rest =>
    if other = name then (name, value) :: rest else (other, old) :: insert name value rest

/-- The value under `name`, and the entries with the new value in its place. -/
def getThenInsert? (name value : String) :
    List (String × String) → Option String × List (String × String)
  | [] => (none, [(name, value)])
  | (other, old) :: rest =>
    if other = name then (some old, (name, value) :: rest)
    else
      let (previous?, rest) := getThenInsert? name value rest
      (previous?, (other, old) :: rest)

theorem getThenInsert?_eq (name value : String) (entries : List (String × String)) :
    getThenInsert? name value entries = (entries.lookup name, insert name value entries) := by
  induction entries with
  | nil => rfl
  | cons e rest ih =>
    obtain ⟨other, old⟩ := e
    by_cases h : other = name
    · simp [getThenInsert?, insert, h]
    · have hb : (name == other) = false := by simpa using Ne.symm h
      simp [getThenInsert?, insert, List.lookup_cons, h, hb, ih]

theorem names_insert (name value : String) (entries : List (String × String)) :
    (insert name value entries).map (·.1) =
      if name ∈ entries.map (·.1) then entries.map (·.1) else entries.map (·.1) ++ [name] := by
  induction entries with
  | nil => simp [insert]
  | cons e rest ih =>
    obtain ⟨other, old⟩ := e
    by_cases h : other = name
    · simp [insert, h]
    · simp only [insert, if_neg h, List.map_cons, ih, List.mem_cons, Ne.symm h, false_or]
      split <;> simp

theorem nodup_insert (name value : String) {entries : List (String × String)}
    (h : (entries.map (·.1)).Nodup) : ((insert name value entries).map (·.1)).Nodup := by
  rw [names_insert]
  split
  · exact h
  · next hn =>
    rw [List.nodup_append]
    exact ⟨h, by simp, fun a ha b hb => by rintro rfl; simp_all⟩

theorem insert_of_not_mem {name value : String} {entries : List (String × String)}
    (h : name ∉ entries.map (·.1)) : insert name value entries = entries ++ [(name, value)] := by
  induction entries with
  | nil => rfl
  | cons e rest ih =>
    obtain ⟨other, old⟩ := e
    simp only [List.map_cons, List.mem_cons, not_or] at h
    rw [insert, if_neg (Ne.symm h.1), ih h.2, List.cons_append]

theorem insert_of_eq {name old value : String} {before after : List (String × String)}
    (h : ((before ++ (name, old) :: after).map (·.1)).Nodup) :
    insert name value (before ++ (name, old) :: after) = before ++ (name, value) :: after := by
  induction before with
  | nil => simp [insert]
  | cons p before ih =>
    obtain ⟨other, held⟩ := p
    obtain ⟨hfirst, hrest⟩ := List.nodup_cons.mp h
    have hne : other ≠ name := by
      rintro rfl
      exact hfirst (by simp)
    rw [List.cons_append, insert, if_neg hne, ih hrest, List.cons_append]

theorem lookup_eq_some_iff {name value : String} {entries : List (String × String)}
    (h : (entries.map (·.1)).Nodup) :
    entries.lookup name = some value ↔ (name, value) ∈ entries := by
  induction entries with
  | nil => simp
  | cons e rest ih =>
    obtain ⟨other, old⟩ := e
    obtain ⟨hfirst, hrest⟩ := List.nodup_cons.mp h
    rw [List.lookup_cons, List.mem_cons, Prod.mk.injEq]
    by_cases hne : name = other
    · subst hne
      have hout : (name, value) ∉ rest := fun hm => hfirst (List.mem_map_of_mem (f := (·.1)) hm)
      simp [hout, eq_comm]
    · have hb : (name == other) = false := by simpa using hne
      simp [hb, hne, ih hrest]

end Entries

/-- Names with their values; no name occurs twice. -/
structure Environment where
  entries : List (String × String) := []
  nodup : (entries.map (·.1)).Nodup := by simp

namespace Environment

@[ext] theorem ext {e f : Environment} (h : e.entries = f.entries) : e = f := by
  cases e; cases f; simp_all

instance : DecidableEq Environment := fun e f =>
  decidable_of_iff (e.entries = f.entries) ⟨ext, fun h => h ▸ rfl⟩

instance : EmptyCollection Environment := ⟨{}⟩

instance : Inhabited Environment := ⟨∅⟩

def names (e : Environment) : List String :=
  e.entries.map (·.1)

def get? (e : Environment) (name : String) : Option String :=
  e.entries.lookup name

def contains (e : Environment) (name : String) : Bool :=
  (e.get? name).isSome

def first? (e : Environment) : Option (String × String) :=
  e.entries.head?

def size (e : Environment) : Nat :=
  e.entries.length

def isEmpty (e : Environment) : Bool :=
  e.entries.isEmpty

def insert (e : Environment) (name value : String) : Environment :=
  ⟨Entries.insert name value e.entries, Entries.nodup_insert name value e.nodup⟩

def getThenInsert? (e : Environment) (name value : String) : Option String × Environment :=
  let result := Entries.getThenInsert? name value e.entries
  have h : (result.2.map (·.1)).Nodup := by
    simp only [result, Entries.getThenInsert?_eq]
    exact Entries.nodup_insert name value e.nodup
  (result.1, ⟨result.2, h⟩)

def ofPairs (pairs : List (String × String)) : Environment :=
  pairs.foldl (fun e (name, value) => e.insert name value) ∅

/-- Two environments agree if they give the same names the same values, in
whatever order. -/
def agrees (e f : Environment) : Bool :=
  e.size == f.size && e.entries.all fun (name, value) => f.get? name == some value

/-- One line for a reader: names and values between apostrophes, in order. -/
def text (e : Environment) : String :=
  "\x7b" ++ ", ".intercalate (e.entries.map fun (name, value) => s!"'{name}': '{value}'") ++ "\x7d"

@[simp] theorem entries_empty : (∅ : Environment).entries = [] := rfl

@[simp] theorem entries_insert (e : Environment) (name value : String) :
    (e.insert name value).entries = Entries.insert name value e.entries := rfl

theorem getThenInsert?_eq (e : Environment) (name value : String) :
    e.getThenInsert? name value = (e.get? name, e.insert name value) := by
  simp only [getThenInsert?, Entries.getThenInsert?_eq]
  rfl

theorem names_insert_of_not_mem {e : Environment} {name : String} (value : String)
    (h : name ∉ e.names) : (e.insert name value).names = e.names ++ [name] := by
  simp only [names, entries_insert, Entries.insert_of_not_mem h, List.map_append, List.map_cons,
    List.map_nil]

theorem get?_insert_self (e : Environment) (name value : String) :
    (e.insert name value).get? name = some value := by
  simp only [get?, entries_insert]
  induction e.entries with
  | nil => simp [Entries.insert]
  | cons p rest ih =>
    obtain ⟨other, old⟩ := p
    by_cases h : other = name
    · simp [Entries.insert, h]
    · have h' : (name == other) = false := by simpa using Ne.symm h
      simp [Entries.insert, h, List.lookup_cons, h', ih]

theorem get?_insert_of_ne (e : Environment) {name other : String} (value : String)
    (hne : other ≠ name) : (e.insert name value).get? other = e.get? other := by
  simp only [get?, entries_insert]
  induction e.entries with
  | nil =>
    have hb : (other == name) = false := by simpa using hne
    simp [Entries.insert, List.lookup_cons, hb]
  | cons p rest ih =>
    obtain ⟨found, old⟩ := p
    by_cases h : found = name
    · subst h
      have hb : (other == found) = false := by simpa using hne
      simp [Entries.insert, List.lookup_cons, hb]
    · simp only [Entries.insert, if_neg h, List.lookup_cons, ih]

theorem get?_eq_some_iff {e : Environment} {name value : String} :
    e.get? name = some value ↔ (name, value) ∈ e.entries :=
  Entries.lookup_eq_some_iff e.nodup

theorem contains_iff {e : Environment} {name : String} : e.contains name ↔ name ∈ e.names := by
  simp only [contains, get?, names, List.lookup_isSome_iff, List.mem_map, beq_iff_eq]
  exact ⟨fun ⟨p, hp, h⟩ => ⟨p, hp, h.symm⟩, fun ⟨p, hp, h⟩ => ⟨p, hp, h.symm⟩⟩

end Environment

end ScgiStub
