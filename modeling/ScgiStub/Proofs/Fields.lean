import Mathlib.Tactic.Common
import ScgiStub.Request.HeaderBlock

/-! # Header blocks and the pairs in them

A block is read as exactly the pairs whose fields make it up, and it is refused
if there are no such pairs or if a name would occur twice.
-/

namespace ScgiStub

namespace HeaderBlock

variable {env env' : Environment} {pairs : List (String × String)} {name value : Bytes}
  {block tail : Bytes} {fields : List Bytes}

theorem zero_not_mem_split (block : Bytes) :
    (∀ f ∈ (split block).1, (0 : UInt8) ∉ f) ∧ (0 : UInt8) ∉ (split block).2 := by
  induction block with
  | nil => simp [split]
  | cons b bs ih =>
    obtain ⟨hf, ht⟩ := ih
    rw [split]
    by_cases hb : b = 0
    · simpa [hb] using ⟨hf, ht⟩
    · cases hs : (split bs).1 with
      | nil => simpa [hb, hs, Ne.symm hb] using ht
      | cons field fields =>
        rw [hs] at hf
        obtain ⟨hfield, hfields⟩ := List.forall_mem_cons.mp hf
        simpa [hb, hs, Ne.symm hb] using ⟨⟨hfield, hfields⟩, ht⟩

theorem split_of_not_mem (h : (0 : UInt8) ∉ block) : split block = ([], block) := by
  induction block with
  | nil => rfl
  | cons b bs ih =>
    obtain ⟨hb, hbs⟩ := not_or.mp fun hm => h (List.mem_cons.mpr hm)
    simp [split, ih hbs, Ne.symm hb]

/-- Splitting undoes the joining of fields by NUL bytes, and nothing else does. -/
theorem split_eq_iff : split block = (fields, tail) ↔
    block = fields.flatMap (· ++ [0]) ++ tail ∧ (∀ f ∈ fields, (0 : UInt8) ∉ f) ∧
      (0 : UInt8) ∉ tail := by
  constructor
  · intro h
    have hj := flatten_split block
    have hz := zero_not_mem_split block
    rw [h] at hj hz
    exact ⟨hj.symm, hz⟩
  · rintro ⟨rfl, hf, ht⟩
    induction fields with
    | nil => rw [List.flatMap_nil, List.nil_append, split_of_not_mem ht]
    | cons field fields ih =>
      obtain ⟨hfield, hfields⟩ := List.forall_mem_cons.mp hf
      rw [List.flatMap_cons, List.append_assoc, List.append_assoc, List.singleton_append,
        split_append hfield, ih hfields]

/-- Pairs that a block may add to an environment. -/
structure Fits (env : Environment) (pairs : List (String × String)) : Prop where
  name_ne : ∀ p ∈ pairs, p.1 ≠ ""
  no_nul : ∀ p ∈ pairs, '\x00' ∉ p.1.toList ∧ '\x00' ∉ p.2.toList
  nodup : (env.names ++ pairs.map (·.1)).Nodup

theorem addPair_ok_iff : addPair env name value = (.ok (), env') ↔
    ∃ n v, name = Utf8.encode n ∧ value = Utf8.encode v ∧ n ≠ "" ∧ n ∉ env.names ∧
      env' = env.insert n v := by
  constructor
  · intro h
    unfold addPair at h
    split at h
    · cases h
    · next hne =>
      split at h
      · cases h
      · next n hn =>
        split at h
        · cases h
        · next v hv =>
          rw [Utf8.decode_eq_ok_iff] at hn hv
          by_cases hc : env.contains n
          · simp [hc] at h
          · simp only [hc] at h
            obtain ⟨-, rfl⟩ := Prod.mk.inj h
            refine ⟨n, v, hn, hv, ?_, fun hm => hc (Environment.contains_iff.mpr hm), rfl⟩
            rintro rfl
            exact hne (hn.trans Utf8.encode_empty)
  · rintro ⟨n, v, rfl, rfl, hne, hfresh, rfl⟩
    have hn : Utf8.encode n ≠ [] := fun h => hne (Utf8.encode_eq_nil_iff.mp h)
    have hc : env.contains n = false := by
      rw [Bool.eq_false_iff]; exact fun h => hfresh (Environment.contains_iff.mp h)
    simp [addPair, hn, hc]

def fieldsOf (pairs : List (String × String)) : List Bytes :=
  pairs.flatMap fun (name, value) => [Utf8.encode name, Utf8.encode value]

theorem encode_eq_flatMap (pairs : List (String × String)) :
    encode pairs = (fieldsOf pairs).flatMap (· ++ [0]) := by
  induction pairs with
  | nil => rfl
  | cons p pairs ih =>
    obtain ⟨n, v⟩ := p
    simp [fieldsOf, field] at ih ⊢
    exact ih

theorem mem_fieldsOf {f : Bytes} : f ∈ fieldsOf pairs ↔
    ∃ p ∈ pairs, f = Utf8.encode p.1 ∨ f = Utf8.encode p.2 := by
  simp [fieldsOf]

theorem zero_not_mem_fieldsOf_iff : (∀ f ∈ fieldsOf pairs, (0 : UInt8) ∉ f) ↔
    ∀ p ∈ pairs, '\x00' ∉ p.1.toList ∧ '\x00' ∉ p.2.toList := by
  simp only [← Utf8.zero_mem_encode_iff]
  constructor
  · intro h p hp
    exact ⟨h _ (mem_fieldsOf.mpr ⟨p, hp, .inl rfl⟩), h _ (mem_fieldsOf.mpr ⟨p, hp, .inr rfl⟩)⟩
  · intro h f hf
    obtain ⟨p, hp, rfl | rfl⟩ := mem_fieldsOf.mp hf
    · exact (h p hp).1
    · exact (h p hp).2

theorem addFields_ok_iff : addFields env fields = (.ok (), env') ↔
    ∃ pairs, fields = fieldsOf pairs ∧ (∀ p ∈ pairs, p.1 ≠ "") ∧
      (env.names ++ pairs.map (·.1)).Nodup ∧ env'.entries = env.entries ++ pairs := by
  constructor
  · intro h
    fun_induction addFields env fields with
    | case1 env =>
      obtain ⟨-, rfl⟩ := Prod.mk.inj h
      exact ⟨[], rfl, nofun, by simpa [Environment.names] using env.nodup, by simp⟩
    | case2 => cases h
    | case3 env name value fields fault env₁ hp => cases h
    | case4 env name value fields env₁ hp ih =>
      obtain ⟨n, v, rfl, rfl, hne, hfresh, rfl⟩ := addPair_ok_iff.mp hp
      obtain ⟨pairs, rfl, hnames, hnodup, he⟩ := ih h
      rw [Environment.names_insert_of_not_mem _ hfresh] at hnodup
      rw [Environment.entries_insert, Entries.insert_of_not_mem hfresh] at he
      exact ⟨(n, v) :: pairs, rfl, List.forall_mem_cons.mpr ⟨hne, hnames⟩, by simpa using hnodup,
        by simpa using he⟩
  · rintro ⟨pairs, rfl, hnames, hnodup, he⟩
    induction pairs generalizing env with
    | nil =>
      obtain rfl : env' = env := Environment.ext (by simpa using he)
      rfl
    | cons p pairs ih =>
      obtain ⟨n, v⟩ := p
      obtain ⟨hne, hnames⟩ := List.forall_mem_cons.mp hnames
      have hfresh : n ∉ env.names := fun hm =>
        (List.nodup_append.mp hnodup).2.2 n hm n List.mem_cons_self rfl
      have hp := addPair_ok_iff.mpr ⟨n, v, rfl, rfl, hne, hfresh, rfl⟩
      change addFields env (Utf8.encode n :: Utf8.encode v :: fieldsOf pairs) = _
      rw [addFields, hp]
      apply ih hnames
      · rw [Environment.names_insert_of_not_mem _ hfresh]; simpa using hnodup
      · rw [Environment.entries_insert, Entries.insert_of_not_mem hfresh]; simpa using he

theorem split_encode (h : ∀ p ∈ pairs, '\x00' ∉ p.1.toList ∧ '\x00' ∉ p.2.toList) :
    split (encode pairs) = (fieldsOf pairs, []) := by
  rw [encode_eq_flatMap, split_eq_iff, List.append_nil]
  exact ⟨rfl, zero_not_mem_fieldsOf_iff.mpr h, by simp⟩

/-- Decoding succeeds exactly on the blocks of pairs that fit, and adds those. -/
theorem decode_ok_iff : decode env block = (.ok (), env') ↔
    ∃ pairs, block = encode pairs ∧ Fits env pairs ∧ env'.entries = env.entries ++ pairs := by
  constructor
  · intro h
    unfold decode at h
    split at h
    · next fields hs =>
      obtain ⟨pairs, rfl, hnames, hnodup, he⟩ := addFields_ok_iff.mp h
      obtain ⟨hblock, hzero, -⟩ := split_eq_iff.mp hs
      refine ⟨pairs, ?_, ⟨hnames, zero_not_mem_fieldsOf_iff.mp hzero, hnodup⟩, he⟩
      rw [encode_eq_flatMap, hblock, List.append_nil]
    · cases h
  · rintro ⟨pairs, rfl, hfits, he⟩
    rw [decode, split_encode hfits.no_nul]
    exact addFields_ok_iff.mpr ⟨pairs, rfl, hfits.name_ne, hfits.nodup, he⟩

end HeaderBlock

end ScgiStub
