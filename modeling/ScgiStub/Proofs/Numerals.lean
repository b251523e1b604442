import Mathlib.Algebra.Group.Nat.Defs
import Mathlib.Data.List.Basic
import Mathlib.Data.List.Induction
import Mathlib.Tactic.Common
import ScgiStub.Text.Numeral

/-! # Writing and reading numerals

A number is written without leading zeros and read with any number of them. What
is written is read back, and leading zeros are all that reading loses.
-/

namespace ScgiStub

namespace Numeral

variable {ds : Bytes} {n k : Nat}

def write (n : Nat) : Bytes :=
  Utf8.encode (toString n)

/-- There is no leading zero, except that of the number zero. -/
def IsPlain (ds : Bytes) : Prop :=
  ds.head? = some 0x30 → ds.length = 1

theorem isDigit_iff {b : UInt8} : isDigit b ↔ 48 ≤ b.toNat ∧ b.toNat ≤ 57 := by
  simp [isDigit, UInt8.le_iff_toNat_le]

theorem write_of_lt (h : n < 10) : write n = [UInt8.ofNat (48 + n)] := by
  have hd : ∀ n < 10, String.utf8EncodeChar (Nat.digitChar n) = [UInt8.ofNat (48 + n)] := by decide
  simp only [write, Nat.toString_eq_repr, Nat.repr_of_lt h, Utf8.encode, String.toList_singleton,
    List.flatMap_singleton, hd n h]

theorem write_of_ge (h : 10 ≤ n) : write n = write (n / 10) ++ write (n % 10) := by
  simp only [write, Nat.toString_eq_repr]
  rw [Nat.repr_eq_repr_append_repr h, Utf8.encode_append]

theorem write_ne_nil : write n ≠ [] := by
  rcases Nat.lt_or_ge n 10 with h | h
  · simp [write_of_lt h]
  · rw [write_of_ge h, write_of_lt (n := n % 10) (by omega)]; simp

theorem isDigit_of_mem_write : ∀ b ∈ write n, isDigit b := by
  induction n using Nat.strongRecOn with
  | _ n ih =>
    rcases Nat.lt_or_ge n 10 with h | h
    · rw [write_of_lt h]
      intro b hb
      obtain rfl := List.mem_singleton.mp hb
      rw [isDigit_iff, UInt8.toNat_ofNat']
      omega
    · rw [write_of_ge h]
      exact List.forall_mem_append.mpr ⟨ih _ (by omega), ih _ (by omega)⟩

theorem not_mem_toString {c : Char} (hc : c.toNat < 0x80)
    (hd : isDigit (UInt8.ofNat c.toNat) = false) (n : Nat) : c ∉ (toString n).toList := by
  intro h
  have hdigit := isDigit_of_mem_write _ ((Utf8.mem_encode_iff hc).mpr h)
  exact Bool.false_ne_true (hd.symm.trans hdigit)

theorem value_write : value (write n) = n := by
  induction n using Nat.strongRecOn with
  | _ n ih =>
    rcases Nat.lt_or_ge n 10 with h | h
    · simp only [write_of_lt h, value, List.foldl_cons, List.foldl_nil, UInt8.toNat_ofNat']
      omega
    · rw [write_of_ge h, write_of_lt (n := n % 10) (by omega), value_append, ih _ (by omega),
        UInt8.toNat_ofNat']
      omega

theorem length_write_le (h : n < 10 ^ (k + 1)) : (write n).length ≤ k + 1 := by
  induction k generalizing n with
  | zero => rw [write_of_lt (by omega)]; simp
  | succ k ih =>
    rcases Nat.lt_or_ge n 10 with hn | hn
    · rw [write_of_lt hn]; simp
    · have hdiv : n / 10 < 10 ^ (k + 1) := by rw [Nat.pow_succ] at h; omega
      rw [write_of_ge hn, List.length_append, write_of_lt (n := n % 10) (by omega)]
      exact Nat.succ_le_succ (ih hdiv)

theorem exists_encode_of_digits {digits : Bytes} (h : ∀ b ∈ digits, isDigit b) :
    ∃ text, digits = Utf8.encode text := by
  induction digits with
  | nil => exact ⟨"", rfl⟩
  | cons b digits ih =>
    obtain ⟨hb, hdigits⟩ := List.forall_mem_cons.mp h
    obtain ⟨text, rfl⟩ := ih hdigits
    have hb' := isDigit_iff.mp hb
    have hdigit : Utf8.encode (toString (b.toNat - 48)) = [b] := by
      have hw := write_of_lt (n := b.toNat - 48) (by omega)
      rwa [show 48 + (b.toNat - 48) = b.toNat by omega, UInt8.ofNat_toNat] at hw
    refine ⟨toString (b.toNat - 48) ++ text, ?_⟩
    rw [Utf8.encode_append, hdigit, List.singleton_append]

theorem value_lt (h : ∀ b ∈ ds, isDigit b) : value ds < 10 ^ ds.length := by
  induction ds using List.reverseRecOn with
  | nil => simp
  | append_singleton ds d ih =>
    obtain ⟨hds, hd⟩ := List.forall_mem_append.mp h
    have hd' := isDigit_iff.mp (hd d List.mem_cons_self)
    have hv := ih hds
    rw [value_append, List.length_append, List.length_singleton, Nat.pow_succ]
    omega

theorem length_write_value_le (hne : ds ≠ []) (h : ∀ b ∈ ds, isDigit b) :
    (write (value ds)).length ≤ ds.length := by
  obtain ⟨k, hk⟩ : ∃ k, ds.length = k + 1 := Nat.exists_eq_add_one.mpr (List.length_pos_iff.mpr hne)
  rw [hk]
  exact length_write_le (hk ▸ value_lt h)

theorem head?_write_ne (h : n ≠ 0) : (write n).head? ≠ some 0x30 := by
  induction n using Nat.strongRecOn with
  | _ n ih =>
    rcases Nat.lt_or_ge n 10 with hn | hn
    · rw [write_of_lt hn]
      simp only [List.head?_cons, ne_eq, Option.some.injEq, ← UInt8.toNat_inj, UInt8.toNat_ofNat']
      change ¬ (48 + n) % 2 ^ 8 = 48
      omega
    · rw [write_of_ge hn, List.head?_append_of_ne_nil _ write_ne_nil]
      exact ih _ (by omega) (by omega)

theorem isPlain_write : IsPlain (write n) := by
  intro h
  by_cases hn : n = 0
  · rw [hn, write_of_lt (by omega)]; rfl
  · exact absurd h (head?_write_ne hn)

theorem write_value_of_isPlain (hne : ds ≠ []) (h : ∀ b ∈ ds, isDigit b) (hp : IsPlain ds) :
    write (value ds) = ds := by
  induction ds using List.reverseRecOn with
  | nil => exact absurd rfl hne
  | append_singleton ds d ih =>
    obtain ⟨hds, hd⟩ := List.forall_mem_append.mp h
    have hd' := isDigit_iff.mp (hd d List.mem_cons_self)
    have hdigit : UInt8.ofNat (48 + (d.toNat - 48)) = d := by
      rw [show 48 + (d.toNat - 48) = d.toNat by omega, UInt8.ofNat_toNat]
    by_cases hnil : ds = []
    · subst hnil
      rw [value_append, value_nil, write_of_lt (by omega), Nat.mul_zero, Nat.zero_add, hdigit]
      rfl
    · have hhead : ds.head? ≠ some 0x30 := by
        intro hz
        have hlen := hp (by rw [List.head?_append_of_ne_nil _ hnil, hz])
        simp [List.length_eq_zero_iff, hnil] at hlen
      have hv := ih hnil hds fun hz => absurd hz hhead
      have hpos : value ds ≠ 0 := by
        intro hz
        rw [hz, write_of_lt (by omega)] at hv
        rw [← hv] at hhead
        exact hhead rfl
      rw [value_append, write_of_ge (by omega),
        show (10 * value ds + (d.toNat - 48)) / 10 = value ds by omega, hv,
        show (10 * value ds + (d.toNat - 48)) % 10 = d.toNat - 48 by omega,
        write_of_lt (by omega), hdigit]

/-- A numeral is the one that is written exactly if it has no leading zero. -/
theorem write_value_eq_iff (hne : ds ≠ []) (h : ∀ b ∈ ds, isDigit b) :
    write (value ds) = ds ↔ IsPlain ds := by
  constructor
  · intro he; rw [← he]; exact isPlain_write
  · exact write_value_of_isPlain hne h

theorem lt_bound_iff : n < bound ↔ n ≤ 2 ^ 64 - 1 :=
  Nat.lt_iff_le_pred (by decide)

theorem read?_write (h : n < bound) : read? (write n) = some n :=
  read?_eq_some_iff.mpr ⟨write_ne_nil, List.all_eq_true.mpr isDigit_of_mem_write,
    by rwa [value_write], value_write⟩

theorem readSigned?_eq_read? (h : ∀ b ∈ ds, isDigit b) : readSigned? ds = read? ds := by
  unfold readSigned?
  split
  · exact absurd (h 0x2B List.mem_cons_self) (by decide)
  · rfl

end Numeral

end ScgiStub
