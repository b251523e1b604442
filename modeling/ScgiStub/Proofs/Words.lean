import Mathlib.Algebra.Group.Int.Defs
import Mathlib.Data.List.Induction
import ScgiStub.Proofs.Numerals

/-! # Machine words

Sums and products of words are given up when they leave the word. A numeral that is read with
them, digit by digit, is given up on the way exactly if its number does not fit in a word,
whatever zeros it starts with.
-/

namespace ScgiStub

namespace Word

variable {a b w : UInt64} {n : Nat}

def ofNat? (n : Nat) : Option UInt64 :=
  if n < UInt64.size then some (UInt64.ofNat n) else none

def ofInt? (i : Int) : Option Int64 :=
  if -2 ^ 63 ≤ i ∧ i < 2 ^ 63 then some (Int64.ofInt i) else none

def plus? (a b : UInt64) : Option UInt64 :=
  ofNat? (a.toNat + b.toNat)

def times? (a b : UInt64) : Option UInt64 :=
  ofNat? (a.toNat * b.toNat)

theorem ofNat?_eq_some_iff : ofNat? n = some w ↔ w.toNat = n := by
  unfold ofNat?
  split
  · next h =>
    rw [Option.some_inj, ← UInt64.toNat_inj, UInt64.toNat_ofNat_of_lt' h, eq_comm]
  · next h =>
    constructor
    · rintro ⟨⟩
    · rintro rfl
      exact absurd w.toNat_lt_size h

theorem ofInt?_eq_some_iff {i : Int} {w : Int64} : ofInt? i = some w ↔ w.toInt = i := by
  unfold ofInt?
  split
  · next h => rw [Option.some_inj, ← Int64.toInt_inj, Int64.toInt_ofInt_of_le h.1 h.2, eq_comm]
  · next h =>
    constructor
    · rintro ⟨⟩
    · rintro rfl
      exact absurd ⟨w.le_toInt, w.toInt_lt⟩ h

theorem plus?_eq_some_iff : plus? a b = some w ↔ w.toNat = a.toNat + b.toNat :=
  ofNat?_eq_some_iff

theorem times?_eq_some_iff : times? a b = some w ↔ w.toNat = a.toNat * b.toNat :=
  ofNat?_eq_some_iff

end Word

namespace Numeral

variable {ds : Bytes} {b : UInt8} {w w' : UInt64}

/-- The number in a word, with one more digit behind it. -/
def pushDigit? (w : UInt64) (b : UInt8) : Option UInt64 :=
  if isDigit b then (Word.times? w 10).bind (Word.plus? · (b - 0x30).toUInt64) else none

/-- The number that digits denote, kept in a word all the time. -/
def scanWord? (digits : Bytes) : Option UInt64 :=
  digits.foldlM pushDigit? 0

def readWord? : Bytes → Option UInt64
  | [] | [0x2B] => none
  | 0x2B :: digits => scanWord? digits
  | digits => scanWord? digits

theorem toNat_digit (hb : isDigit b) : (b - 0x30).toUInt64.toNat = b.toNat - 48 := by
  obtain ⟨hlow, -⟩ := isDigit_iff.mp hb
  have hle : (0x30 : UInt8) ≤ b := UInt8.le_iff_toNat_le.mpr hlow
  rw [UInt8.toNat_toUInt64, UInt8.toNat_sub_of_le _ _ hle]
  rfl

theorem pushDigit?_eq_some_iff :
    pushDigit? w b = some w' ↔ isDigit b ∧ w'.toNat = 10 * w.toNat + (b.toNat - 48) := by
  unfold pushDigit?
  split
  · next hb =>
    simp only [hb, true_and, Option.bind_eq_some_iff, Word.times?_eq_some_iff,
      Word.plus?_eq_some_iff, toNat_digit hb]
    constructor
    · rintro ⟨m, hm, hw⟩
      rw [hw, hm, Nat.mul_comm]
      rfl
    · intro hw
      have hlt : 10 * w.toNat < UInt64.size := by
        have := w'.toNat_lt_size
        omega
      refine ⟨UInt64.ofNat (10 * w.toNat), ?_, ?_⟩
      · rw [UInt64.toNat_ofNat_of_lt' hlt, Nat.mul_comm]
        rfl
      · rw [UInt64.toNat_ofNat_of_lt' hlt, hw]
  · next hb => simp [hb]

theorem scanWord?_eq_some_iff :
    scanWord? ds = some w ↔ (∀ b ∈ ds, isDigit b) ∧ w.toNat = value ds := by
  induction ds using List.reverseRecOn generalizing w with
  | nil =>
    have hzero : scanWord? [] = some 0 := rfl
    rw [hzero, Option.some_inj, ← UInt64.toNat_inj, value_nil]
    exact ⟨fun hw => ⟨nofun, hw.symm⟩, fun ⟨_, hw⟩ => hw.symm⟩
  | append_singleton ds d ih =>
    have hscan : scanWord? (ds ++ [d]) = (scanWord? ds).bind (pushDigit? · d) := by
      simp [scanWord?, List.foldlM_append]
    rw [hscan, Option.bind_eq_some_iff, value_append, List.forall_mem_append,
      List.forall_mem_singleton]
    simp only [pushDigit?_eq_some_iff, ih]
    constructor
    · rintro ⟨v, ⟨hds, hv⟩, hd, hw⟩
      exact ⟨⟨hds, hd⟩, by rw [hw, hv]⟩
    · rintro ⟨⟨hds, hd⟩, hw⟩
      have hlt : value ds < UInt64.size := by
        have := w.toNat_lt_size
        omega
      have hv := UInt64.toNat_ofNat_of_lt' hlt
      exact ⟨UInt64.ofNat (value ds), ⟨hds, hv⟩, hd, by rw [hw, hv]⟩

theorem map_scanWord? (hne : ds ≠ []) : (scanWord? ds).map UInt64.toNat = read? ds := by
  ext n
  rw [Option.map_eq_some_iff, read?_eq_some_iff, List.all_eq_true]
  simp only [scanWord?_eq_some_iff]
  constructor
  · rintro ⟨w, ⟨hds, hw⟩, rfl⟩
    exact ⟨hne, hds, hw ▸ w.toNat_lt_size, hw.symm⟩
  · rintro ⟨-, hds, hlt, rfl⟩
    have hw := UInt64.toNat_ofNat_of_lt' hlt
    exact ⟨UInt64.ofNat (value ds), ⟨hds, hw⟩, hw⟩

/-- Overflow on the way makes no difference to what is read. -/
theorem map_readWord? (bs : Bytes) : (readWord? bs).map UInt64.toNat = readSigned? bs := by
  unfold readWord? readSigned?
  split
  · rfl
  · rfl
  · next digits hne => exact map_scanWord? hne
  · next hne hplus hsign =>
    split
    · next digits => exact absurd rfl (hsign digits)
    · exact map_scanWord? hne

/-- The last number that fits, after any number of zeros, and the first that does not. -/
example : readWord? (Utf8.encode "+00018446744073709551615") = some 18446744073709551615 ∧
    readWord? (Utf8.encode "18446744073709551616") = none := by
  decide +kernel

end Numeral

end ScgiStub
