import Mathlib.Data.List.Basic
import Mathlib.Tactic.Common
import ScgiStub.Environment

/-! # Rows of insertions

Of pairs that are inserted one after the other, the first with a name gives the name its place
and the last gives it its value.
-/

namespace ScgiStub

section Lookup

variable {name value : String} {pairs : List (String × String)}

theorem forall_bne_iff : (∀ pair ∈ pairs, name != pair.1) ↔ name ∉ pairs.map (·.1) := by
  simp only [bne_iff_ne, List.mem_map, not_exists, not_and]
  exact forall₂_congr fun pair _ => ne_comm

theorem lookup_reverse_eq_some_iff : pairs.reverse.lookup name = some value ↔
    ∃ before after, pairs = before ++ (name, value) :: after ∧ name ∉ after.map (·.1) := by
  simp only [← forall_bne_iff]
  rw [List.lookup_eq_some_iff]
  constructor
  · rintro ⟨later, earlier, heq, hlater⟩
    refine ⟨earlier.reverse, later.reverse, ?_, ?_⟩
    · rw [← List.reverse_inj, heq]
      simp
    · simpa only [List.mem_reverse] using hlater
  · rintro ⟨before, after, rfl, hafter⟩
    refine ⟨after.reverse, before.reverse, by simp, ?_⟩
    simpa only [List.mem_reverse] using hafter

theorem lookup_reverse_eq_none_iff :
    pairs.reverse.lookup name = none ↔ name ∉ pairs.map (·.1) := by
  rw [List.lookup_eq_none_iff, ← forall_bne_iff]
  simp only [List.mem_reverse]

end Lookup

namespace Environment

variable {env : Environment} {name other value : String} {pairs : List (String × String)}

theorem mem_names_insert_iff :
    other ∈ (env.insert name value).names ↔ other = name ∨ other ∈ env.names := by
  rw [names, entries_insert, Entries.names_insert, ← names]
  by_cases h : name ∈ env.names
  · rw [if_pos h]
    exact ⟨.inr, fun ho => ho.elim (fun he => he ▸ h) id⟩
  · simp [if_neg h, or_comm]

theorem get?_insert :
    (env.insert name value).get? other = if other = name then some value else env.get? other := by
  by_cases h : other = name
  · rw [if_pos h, h, get?_insert_self]
  · rw [if_neg h, get?_insert_of_ne _ _ h]

def insertAll (env : Environment) (pairs : List (String × String)) : Environment :=
  pairs.foldl (fun env (name, value) => env.insert name value) env

@[simp] theorem insertAll_nil : env.insertAll [] = env := rfl

@[simp] theorem insertAll_cons (pair : String × String) :
    env.insertAll (pair :: pairs) = (env.insert pair.1 pair.2).insertAll pairs := rfl

/-- Names that are new come behind the others, in the order of their first pairs. -/
theorem names_insertAll : (env.insertAll pairs).names =
    env.names ++ ((pairs.map (·.1)).filter (· ∉ env.names)).eraseDups := by
  induction pairs generalizing env with
  | nil => simp
  | cons pair pairs ih =>
    obtain ⟨name, value⟩ := pair
    rw [insertAll_cons, ih, List.map_cons]
    by_cases h : name ∈ env.names
    · have hnames : (env.insert name value).names = env.names := by
        rw [names, entries_insert, Entries.names_insert, ← names, if_pos h]
      rw [hnames, List.filter_cons_of_neg (by simpa using h)]
    · have hfilter : (pairs.map (·.1)).filter (· ∉ env.names ++ [name]) =
          ((pairs.map (·.1)).filter (· ∉ env.names)).filter fun other => !other == name := by
        rw [List.filter_filter]
        apply List.filter_congr
        intro other _
        by_cases ho : other = name <;> simp [ho, h]
      rw [names_insert_of_not_mem value h, hfilter, List.filter_cons_of_pos (by simpa using h),
        List.eraseDups_cons, List.append_assoc, List.singleton_append]

theorem entries_insertAll_of_nodup (h : (env.names ++ pairs.map (·.1)).Nodup) :
    (env.insertAll pairs).entries = env.entries ++ pairs := by
  induction pairs generalizing env with
  | nil => simp
  | cons pair pairs ih =>
    obtain ⟨name, value⟩ := pair
    have hfresh : name ∉ env.names := fun hm =>
      (List.nodup_append.mp h).2.2 name hm name List.mem_cons_self rfl
    have hnodup : ((env.insert name value).names ++ pairs.map (·.1)).Nodup := by
      rw [names_insert_of_not_mem value hfresh]
      simpa using h
    rw [insertAll_cons, ih hnodup, entries_insert, Entries.insert_of_not_mem hfresh]
    simp

/-- The last pair with a name wins over those before it, and they win over what was there. -/
theorem get?_insertAll :
    (env.insertAll pairs).get? name = (pairs.reverse.lookup name).or (env.get? name) := by
  induction pairs generalizing env with
  | nil => rfl
  | cons pair pairs ih =>
    obtain ⟨first, value⟩ := pair
    rw [insertAll_cons, ih, get?_insert, List.reverse_cons, List.lookup_append, Option.or_assoc]
    by_cases h : name = first
    · simp [h]
    · have hb : (name == first) = false := by simpa using h
      simp [h, hb, List.lookup_cons]

theorem mem_names_insertAll_iff :
    name ∈ (env.insertAll pairs).names ↔ name ∈ env.names ∨ name ∈ pairs.map (·.1) := by
  rw [names_insertAll, List.mem_append, List.mem_eraseDups, List.mem_filter]
  by_cases h : name ∈ env.names <;> simp [h]

theorem mem_entries_insertAll_iff : (name, value) ∈ (env.insertAll pairs).entries ↔
    (∃ before after, pairs = before ++ (name, value) :: after ∧ name ∉ after.map (·.1)) ∨
      name ∉ pairs.map (·.1) ∧ (name, value) ∈ env.entries := by
  rw [← get?_eq_some_iff, get?_insertAll, Option.or_eq_some_iff, lookup_reverse_eq_some_iff,
    lookup_reverse_eq_none_iff, get?_eq_some_iff]

end Environment

end ScgiStub
