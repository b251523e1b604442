import Mathlib.Data.List.Induction
import ScgiStub.Proofs.Fields

/-! # Header blocks that are refused

A block that does not end with a NUL is refused as a whole. Any other block is refused for
the first pair that cannot be added, whatever is behind that pair.
-/

namespace ScgiStub

namespace HeaderBlock

/-- What is wrong with a pair of fields behind others with these names. -/
inductive WrongPair (names : List String) : Bytes → Bytes → Fault → Prop
  | unnamed {value : Bytes} : WrongPair names [] value .malformed
  | nameNotText {name value : Bytes} {fault : Utf8.Fault} :
      Utf8.decode name = .error fault → WrongPair names name value (.notText fault)
  | valueNotText {name : String} {value : Bytes} {fault : Utf8.Fault} :
      name ≠ "" → Utf8.decode value = .error fault →
      WrongPair names (Utf8.encode name) value (.notText fault)
  | duplicate {name value : String} : name ≠ "" → name ∈ names →
      WrongPair names (Utf8.encode name) (Utf8.encode value) (.duplicate name)

/-- What is wrong with a row of fields that starts where it goes wrong. -/
inductive WrongRow (names : List String) : List Bytes → Fault → Prop
  | unpaired {name} : WrongRow names [name] .malformed
  | pair {name value fields fault} : WrongPair names name value fault →
      WrongRow names (name :: value :: fields) fault

/-- There are no bytes behind the last NUL. -/
def Ended (block : Bytes) : Prop :=
  ∀ b ∈ block.getLast?, b = 0

/-- What is wrong with a block, for its end or for the first pair that cannot be added. -/
inductive Wrong (env : Environment) : Bytes → Fault → Prop
  | unended {block} : ¬ Ended block → Wrong env block .malformed
  | unpaired {pairs name} : Fits env pairs → (0 : UInt8) ∉ name →
      Wrong env (encode pairs ++ (name ++ [0])) .malformed
  | pair {pairs name value rest fault} : Fits env pairs → (0 : UInt8) ∉ name →
      (0 : UInt8) ∉ value → Ended rest →
      WrongPair (env.names ++ pairs.map (·.1)) name value fault →
      Wrong env (encode pairs ++ (name ++ 0 :: (value ++ 0 :: rest))) fault

variable {env env' : Environment} {pairs : List (String × String)} {name value block : Bytes}
  {fields tail : List Bytes} {fault : Fault}

theorem addPair_error_of_wrong (h : WrongPair env.names name value fault) :
    (addPair env name value).1 = .error fault := by
  cases h with
  | unnamed => simp [addPair]
  | nameNotText hn =>
    have hne : name ≠ [] := by
      rintro rfl
      cases hn.symm.trans (Utf8.decode_encode "")
    simp [addPair, hne, hn]
  | valueNotText hne hv => simp [addPair, Utf8.encode_eq_nil_iff, hne, hv]
  | duplicate hne hm =>
    simp [addPair, Utf8.encode_eq_nil_iff, hne, Environment.contains_iff.mpr hm]

theorem addPair_error_iff :
    (addPair env name value).1 = .error fault ↔ WrongPair env.names name value fault := by
  constructor
  · intro h
    unfold addPair at h
    split at h
    · next hnil =>
      obtain rfl := Except.error.inj h
      exact hnil ▸ .unnamed
    · next hne =>
      split at h
      · next hn =>
        obtain rfl := Except.error.inj h
        exact .nameNotText hn
      · next n hn =>
        obtain rfl := Utf8.decode_eq_ok_iff.mp hn
        have hne' : n ≠ "" := fun h0 => hne (Utf8.encode_eq_nil_iff.mpr h0)
        split at h
        · next hv =>
          obtain rfl := Except.error.inj h
          exact .valueNotText hne' hv
        · next v hv =>
          obtain rfl := Utf8.decode_eq_ok_iff.mp hv
          split at h
          · next hc =>
            obtain rfl := Except.error.inj h
            exact .duplicate hne' (Environment.contains_iff.mp hc)
          · cases h
  · exact addPair_error_of_wrong

theorem addFields_append (h : addFields env (fieldsOf pairs) = (.ok (), env')) :
    addFields env (fieldsOf pairs ++ tail) = addFields env' tail := by
  induction pairs generalizing env with
  | nil =>
    obtain rfl : env = env' := (Prod.mk.inj h).2
    rfl
  | cons p pairs ih =>
    obtain ⟨n, v⟩ := p
    change addFields env (Utf8.encode n :: Utf8.encode v :: fieldsOf pairs) = _ at h
    change addFields env (Utf8.encode n :: Utf8.encode v :: (fieldsOf pairs ++ tail)) = _
    rw [addFields] at h ⊢
    rcases hp : addPair env (Utf8.encode n) (Utf8.encode v) with ⟨_ | _, env₁⟩
    · rw [hp] at h
      cases h
    · rw [hp] at h
      exact ih h

theorem exists_added (hnames : ∀ p ∈ pairs, p.1 ≠ "")
    (hnodup : (env.names ++ pairs.map (·.1)).Nodup) :
    ∃ env' : Environment, env'.entries = env.entries ++ pairs ∧
      env'.names = env.names ++ pairs.map (·.1) ∧
      ∀ tail, addFields env (fieldsOf pairs ++ tail) = addFields env' tail := by
  let env' : Environment := ⟨env.entries ++ pairs, by simpa [Environment.names] using hnodup⟩
  have henv' : env'.names = env.names ++ pairs.map (·.1) := by simp [env', Environment.names]
  have hadded : addFields env (fieldsOf pairs) = (.ok (), env') :=
    addFields_ok_iff.mpr ⟨pairs, rfl, hnames, hnodup, rfl⟩
  exact ⟨env', rfl, henv', fun _ => addFields_append hadded⟩

/-- A row of fields is refused for what is wrong behind the longest row of pairs that can
be added. -/
theorem addFields_error_iff : (addFields env fields).1 = .error fault ↔
    ∃ pairs tail, fields = fieldsOf pairs ++ tail ∧ (∀ p ∈ pairs, p.1 ≠ "") ∧
      (env.names ++ pairs.map (·.1)).Nodup ∧
      WrongRow (env.names ++ pairs.map (·.1)) tail fault := by
  constructor
  · intro h
    fun_induction addFields env fields with
    | case1 => cases h
    | case2 env name =>
      obtain rfl := Except.error.inj h
      exact ⟨[], [name], rfl, by simp, by simpa [Environment.names] using env.nodup, .unpaired⟩
    | case3 env name value fields fault' env₁ hp =>
      obtain rfl := Except.error.inj h
      have hwrong := addPair_error_iff.mp (congrArg Prod.fst hp)
      exact ⟨[], name :: value :: fields, rfl, by simp,
        by simpa [Environment.names] using env.nodup, by simpa using .pair hwrong⟩
    | case4 env name value fields env₁ hp ih =>
      obtain ⟨n, v, rfl, rfl, hne, hfresh, rfl⟩ := addPair_ok_iff.mp hp
      obtain ⟨pairs, tail, rfl, hnames, hnodup, hwrong⟩ := ih h
      rw [Environment.names_insert_of_not_mem _ hfresh] at hnodup hwrong
      exact ⟨(n, v) :: pairs, tail, rfl, List.forall_mem_cons.mpr ⟨hne, hnames⟩,
        by simpa using hnodup, by simpa using hwrong⟩
  · rintro ⟨pairs, tail, rfl, hnames, hnodup, hwrong⟩
    obtain ⟨env', -, henv', hadded⟩ := exists_added hnames hnodup
    rw [hadded]
    rw [← henv'] at hwrong
    cases hwrong with
    | unpaired => rfl
    | pair hpair =>
      have herror := addPair_error_iff.mpr hpair
      rw [addFields]
      split
      · next hp => rwa [hp] at herror
      · next hp =>
        rw [hp] at herror
        cases herror

theorem ended_flatMap (fields : List Bytes) : Ended (fields.flatMap (· ++ [0])) := by
  intro b hb
  induction fields using List.reverseRecOn with
  | nil => cases hb
  | append_singleton fields field =>
    simp only [List.flatMap_append, List.flatMap_singleton, ← List.append_assoc,
      List.getLast?_concat, Option.mem_some_iff] at hb
    exact hb.symm

theorem ended_iff : Ended block ↔ (split block).2 = [] := by
  have hjoin := flatten_split block
  constructor
  · intro h
    rcases List.eq_nil_or_concat (split block).2 with hnil | ⟨tail, b, htail⟩
    · exact hnil
    · have hzero := (zero_not_mem_split block).2
      rw [htail, List.concat_eq_append] at hjoin hzero
      have hlast : b ∈ block.getLast? := by
        rw [← hjoin, ← List.append_assoc, List.getLast?_concat]
        rfl
      exact absurd (by simp [h b hlast]) hzero
  · intro h
    rw [h, List.append_nil] at hjoin
    rw [← hjoin]
    exact ended_flatMap _

theorem split_encode_append (h : ∀ p ∈ pairs, '\x00' ∉ p.1.toList ∧ '\x00' ∉ p.2.toList)
    (rest : Bytes) :
    split (encode pairs ++ rest) = (fieldsOf pairs ++ (split rest).1, (split rest).2) := by
  obtain ⟨hfields, htail⟩ := zero_not_mem_split rest
  rw [split_eq_iff]
  refine ⟨?_, List.forall_mem_append.mpr ⟨zero_not_mem_fieldsOf_iff.mpr h, hfields⟩, htail⟩
  rw [List.flatMap_append, ← encode_eq_flatMap, List.append_assoc, flatten_split]

theorem decode_of_split (h : split block = (fields, [])) :
    decode env block = addFields env fields := by
  rw [decode, h]

theorem decode_of_not_ended (h : ¬ Ended block) : decode env block = (.error .malformed, env) := by
  rw [ended_iff] at h
  unfold decode
  split
  · next hs => exact absurd (congrArg Prod.snd hs) h
  · rfl

theorem decode_error_of_wrong (h : Wrong env block fault) :
    (decode env block).1 = .error fault := by
  cases h with
  | unended hend => rw [decode_of_not_ended hend]
  | @unpaired pairs name hfits hname =>
    have hsplit : split (encode pairs ++ (name ++ [0])) = (fieldsOf pairs ++ [name], []) := by
      rw [split_encode_append hfits.no_nul, split_append hname]
      rfl
    rw [decode_of_split hsplit]
    exact addFields_error_iff.mpr ⟨pairs, _, rfl, hfits.name_ne, hfits.nodup, .unpaired⟩
  | @pair pairs name value rest _ hfits hname hvalue hend hwrong =>
    have hsplit : split (encode pairs ++ (name ++ 0 :: (value ++ 0 :: rest))) =
        (fieldsOf pairs ++ name :: value :: (split rest).1, []) := by
      rw [split_encode_append hfits.no_nul, split_append hname, split_append hvalue,
        ended_iff.mp hend]
    rw [decode_of_split hsplit]
    exact addFields_error_iff.mpr ⟨pairs, _, rfl, hfits.name_ne, hfits.nodup, .pair hwrong⟩

/-- Decoding fails with what is wrong with the block. -/
theorem decode_error_iff : (decode env block).1 = .error fault ↔ Wrong env block fault := by
  constructor
  · intro h
    by_cases hend : Ended block
    case neg =>
      rw [decode_of_not_ended hend] at h
      obtain rfl := Except.error.inj h
      exact .unended hend
    have hsplit : split block = ((split block).1, []) := Prod.ext rfl (ended_iff.mp hend)
    rw [decode_of_split hsplit] at h
    obtain ⟨pairs, tail, hfields, hnames, hnodup, hwrong⟩ := addFields_error_iff.mp h
    rw [hfields] at hsplit
    obtain ⟨rfl, hzero, -⟩ := split_eq_iff.mp hsplit
    obtain ⟨hpairs, htail⟩ := List.forall_mem_append.mp hzero
    have hfits : Fits env pairs := ⟨hnames, zero_not_mem_fieldsOf_iff.mp hpairs, hnodup⟩
    rw [List.append_nil, List.flatMap_append, ← encode_eq_flatMap]
    cases hwrong with
    | @unpaired name =>
      have hname := List.forall_mem_singleton.mp htail
      simpa using Wrong.unpaired hfits hname
    | @pair name value fields _ hpair =>
      obtain ⟨hname, htail⟩ := List.forall_mem_cons.mp htail
      obtain ⟨hvalue, -⟩ := List.forall_mem_cons.mp htail
      simpa using Wrong.pair hfits hname hvalue (ended_flatMap fields) hpair
  · exact decode_error_of_wrong

end HeaderBlock

end ScgiStub
