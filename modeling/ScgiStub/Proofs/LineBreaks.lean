import Mathlib.Data.List.Infix
import Mathlib.Tactic.Common
import ScgiStub.Response

/-! # Line breaks

A client looks for the first CR LF among the bytes, wherever it comes from. In the bytes of
a text there is one exactly if there is one in the text.
-/

namespace ScgiStub

namespace Utf8

theorem utf8EncodeChar_of_lt {c : Char} (hc : c.toNat < 0x80) :
    String.utf8EncodeChar c = [UInt8.ofNat c.toNat] := by
  have hsize : c.utf8Size = 1 := by
    rw [Char.utf8Size_eq_one_iff, UInt32.le_iff_toNat_le]
    exact Nat.le_of_lt_succ hc
  rw [String.utf8EncodeChar_eq_singleton hsize]
  rfl

theorem flatMap_eq_append_cons {c : Char} (hc : c.toNat < 0x80) {cs : List Char}
    {before after : Bytes}
    (h : cs.flatMap String.utf8EncodeChar = before ++ UInt8.ofNat c.toNat :: after) :
    ∃ front back, cs = front ++ c :: back ∧ before = front.flatMap String.utf8EncodeChar ∧
      after = back.flatMap String.utf8EncodeChar := by
  induction cs generalizing before with
  | nil => simp at h
  | cons d cs ih =>
    rw [List.flatMap_cons] at h
    rcases List.append_eq_append_iff.mp h with ⟨more, rfl, hrest⟩ | ⟨_ | ⟨b, more⟩, hd, hrest⟩
    · obtain ⟨front, back, rfl, rfl, rfl⟩ := ih hrest
      exact ⟨d :: front, back, rfl, rfl, rfl⟩
    · have hcs : cs.flatMap String.utf8EncodeChar = [] ++ UInt8.ofNat c.toNat :: after := hrest.symm
      obtain ⟨front, back, rfl, hfront, rfl⟩ := ih hcs
      refine ⟨d :: front, back, rfl, ?_, rfl⟩
      rw [List.flatMap_cons, ← hfront, hd, List.append_nil, List.append_nil]
    · obtain ⟨rfl, rfl⟩ := List.cons.inj hrest
      have hmem : UInt8.ofNat c.toNat ∈ String.utf8EncodeChar d := by simp [hd]
      obtain rfl := (mem_utf8EncodeChar_iff hc d).mp hmem
      rw [utf8EncodeChar_of_lt hc] at hd
      rcases List.append_eq_singleton_iff.mp hd.symm with ⟨rfl, hmore⟩ | ⟨-, hmore⟩
      · obtain ⟨-, rfl⟩ := List.cons.inj hmore
        exact ⟨[], cs, rfl, rfl, rfl⟩
      · cases hmore

theorem encode_eq_append_cons_iff {c : Char} (hc : c.toNat < 0x80) {text : String}
    {before after : Bytes} : encode text = before ++ UInt8.ofNat c.toNat :: after ↔
      ∃ front back, text = front ++ String.singleton c ++ back ∧ before = encode front ∧
        after = encode back := by
  constructor
  · intro h
    obtain ⟨front, back, htext, rfl, rfl⟩ := flatMap_eq_append_cons hc h
    refine ⟨String.ofList front, String.ofList back, ?_, ?_, ?_⟩
    · rw [← String.toList_inj]
      simp [htext]
    · rw [encode, String.toList_ofList]
    · rw [encode, String.toList_ofList]
  · rintro ⟨front, back, rfl, rfl, rfl⟩
    have hsingle : encode (String.singleton c) = [UInt8.ofNat c.toNat] := by
      simp [encode, utf8EncodeChar_of_lt hc]
    rw [encode_append, encode_append, hsingle, List.append_assoc, List.singleton_append]

end Utf8

namespace Response

variable {bs line rest : Bytes} {text : String}

/-- The bytes are a line, the first line break in them, and the rest. -/
structure FirstBreak (bs line rest : Bytes) : Prop where
  eq : bs = line ++ 0x0D :: 0x0A :: rest
  first : ∀ before after, bs = before ++ 0x0D :: 0x0A :: after → line <+: before

def Unbroken (bs : Bytes) : Prop :=
  ¬ [0x0D, 0x0A] <:+: bs

instance (bs : Bytes) : Decidable (Unbroken bs) := inferInstanceAs (Decidable (¬ _))

theorem unbroken_iff : Unbroken bs ↔ ∀ before after, bs ≠ before ++ 0x0D :: 0x0A :: after := by
  constructor
  · rintro h before after rfl
    exact h ⟨before, after, by simp⟩
  · rintro h ⟨before, after, heq⟩
    exact h before after (by simp [← heq])

theorem firstBreak_iff : FirstBreak bs line rest ↔
    bs = line ++ 0x0D :: 0x0A :: rest ∧ Unbroken line := by
  rw [unbroken_iff]
  constructor
  · rintro ⟨rfl, hfirst⟩
    refine ⟨rfl, ?_⟩
    rintro before after rfl
    have hprefix := (hfirst before (after ++ 0x0D :: 0x0A :: rest) (by simp)).length_le
    simp only [List.length_append, List.length_cons] at hprefix
    omega
  · rintro ⟨rfl, hline⟩
    refine ⟨rfl, fun before after heq => ?_⟩
    rcases List.append_eq_append_iff.mp heq with ⟨more, rfl, -⟩ |
      ⟨_ | ⟨b, _ | ⟨b', more⟩⟩, rfl, hmore⟩
    · exact List.prefix_append line more
    · simp
    · simp at hmore
    · simp only [List.cons_append, List.cons.injEq] at hmore
      obtain ⟨rfl, rfl, -⟩ := hmore
      exact absurd rfl (hline before more)

theorem FirstBreak.unique {line' rest' : Bytes} (h : FirstBreak bs line rest)
    (h' : FirstBreak bs line' rest') : line = line' ∧ rest = rest' := by
  have hline : line = line' :=
    (h.first _ _ h'.eq).eq_of_length_le (h'.first _ _ h.eq).length_le
  subst hline
  exact ⟨rfl, by simpa using h.eq.symm.trans h'.eq⟩

theorem unbroken_cons {b : UInt8} (h : ∀ more, b = 0x0D → bs ≠ 0x0A :: more)
    (hbs : Unbroken bs) : Unbroken (b :: bs) := by
  rw [Unbroken, List.infix_cons_iff, List.cons_prefix_cons]
  rintro (⟨rfl, more, rfl⟩ | hinfix)
  · exact h more rfl rfl
  · exact hbs hinfix

theorem unbroken_cons_iff {b : UInt8} (hb : b ≠ 0x0D) : Unbroken (b :: bs) ↔ Unbroken bs := by
  constructor
  · intro h hinfix
    exact h (List.infix_cons hinfix)
  · exact unbroken_cons fun _ h => absurd h hb

theorem splitLine?_cases (bs : Bytes) : (splitLine? bs = none ∧ Unbroken bs) ∨
    ∃ line rest, splitLine? bs = some (line, rest) ∧ FirstBreak bs line rest := by
  fun_induction splitLine? bs with
  | case1 rest => exact .inr ⟨[], rest, rfl, firstBreak_iff.mpr ⟨rfl, by simp [Unbroken]⟩⟩
  | case2 b bs hb ih =>
    rcases ih with ⟨hnone, hbs⟩ | ⟨line, rest, hsome, hbs⟩
    · exact .inl ⟨by rw [hnone]; rfl, unbroken_cons (fun more h h' => hb more h h') hbs⟩
    · obtain ⟨rfl, hline⟩ := firstBreak_iff.mp hbs
      have hline' : Unbroken (b :: line) := by
        refine unbroken_cons (fun more h h' => ?_) hline
        subst h'
        exact hb _ h rfl
      exact .inr ⟨b :: line, rest, by rw [hsome]; rfl, firstBreak_iff.mpr ⟨rfl, hline'⟩⟩
  | case3 => exact .inl ⟨rfl, by simp [Unbroken]⟩

theorem splitLine?_of_firstBreak (h : FirstBreak bs line rest) :
    splitLine? bs = some (line, rest) := by
  rcases splitLine?_cases bs with ⟨-, hbs⟩ | ⟨line', rest', hsome, h'⟩
  · exact absurd h.eq (unbroken_iff.mp hbs line rest)
  · obtain ⟨rfl, rfl⟩ := h.unique h'
    exact hsome

theorem splitLine?_eq_none_iff : splitLine? bs = none ↔ Unbroken bs := by
  rcases splitLine?_cases bs with ⟨hnone, hbs⟩ | ⟨line, rest, hsome, hbreak⟩
  · simp [hnone, hbs]
  · have hbs : ¬ Unbroken bs := fun hbs => unbroken_iff.mp hbs line rest hbreak.eq
    simp [hsome, hbs]

/-- The bytes of a text have a line break exactly if the text has one. -/
theorem unbroken_encode_iff : Unbroken (Utf8.encode text) ↔ ¬ ['\r', '\n'] <:+: text.toList := by
  rw [unbroken_iff, ← not_iff_not, not_not]
  push Not
  constructor
  · rintro ⟨before, after, h⟩
    obtain ⟨front, back, rfl, rfl, hback⟩ :=
      (Utf8.encode_eq_append_cons_iff (c := '\r') (by decide)).mp h
    have hback' : Utf8.encode back = [] ++ 0x0A :: after := hback.symm
    obtain ⟨empty, back', rfl, hempty, rfl⟩ :=
      (Utf8.encode_eq_append_cons_iff (c := '\n') (by decide)).mp hback'
    obtain rfl : empty = "" := Utf8.encode_eq_nil_iff.mp hempty.symm
    exact ⟨front.toList, back'.toList, by simp⟩
  · rintro ⟨front, back, h⟩
    have hbreak : ['\r', '\n'].flatMap String.utf8EncodeChar = [0x0D, 0x0A] := by decide
    refine ⟨front.flatMap String.utf8EncodeChar, back.flatMap String.utf8EncodeChar, ?_⟩
    rw [Utf8.encode, ← h, List.flatMap_append, List.flatMap_append, hbreak, List.append_assoc]
    rfl

end Response

end ScgiStub
