import Mathlib.Tactic.Common
import ScgiStub.Connection
import ScgiStub.Proofs.Numerals

/-! # Texts that stay on one line

What a client sends gets into a message in quotes only, and quotes leave no line
break as it is. So every message stays on one line.
-/

namespace ScgiStub

/-- The character is part of no line break. -/
def StaysOnLine (c : Char) : Prop :=
  c ≠ '\r' ∧ c ≠ '\n'

instance (c : Char) : Decidable (StaysOnLine c) := inferInstanceAs (Decidable (_ ∧ _))

def OneLine (text : String) : Prop :=
  ∀ c ∈ text.toList, StaysOnLine c

instance (text : String) : Decidable (OneLine text) :=
  List.decidableBAll StaysOnLine text.toList

theorem OneLine.append {a b : String} (ha : OneLine a) (hb : OneLine b) : OneLine (a ++ b) := by
  unfold OneLine
  rw [String.toList_append]
  exact List.forall_mem_append.mpr ⟨ha, hb⟩

theorem oneLine_ofList {cs : List Char} (h : ∀ c ∈ cs, StaysOnLine c) :
    OneLine (String.ofList cs) := by
  unfold OneLine
  rwa [String.toList_ofList]

theorem OneLine.not_mem_encode {text : String} (h : OneLine text) :
    0x0D ∉ Utf8.encode text ∧ 0x0A ∉ Utf8.encode text := by
  constructor
  · intro hm
    exact (h '\r' ((Utf8.mem_encode_iff (c := '\r') (by decide)).mp hm)).1 rfl
  · intro hm
    exact (h '\n' ((Utf8.mem_encode_iff (c := '\n') (by decide)).mp hm)).2 rfl

/-! ## Numbers -/

theorem staysOnLine_digitChar : ∀ d < 16, StaysOnLine (Nat.digitChar d) := by
  decide

theorem staysOnLine_of_mem_toDigits {base n : Nat} (hb : 1 < base) (hb' : base ≤ 16) :
    ∀ c ∈ Nat.toDigits base n, StaysOnLine c := by
  induction n using Nat.strongRecOn with
  | _ n ih =>
    rw [Nat.toDigits_eq_if hb]
    split
    · exact List.forall_mem_singleton.mpr (staysOnLine_digitChar n (by omega))
    · have hdiv : n / base < n := Nat.div_lt_self (by omega) hb
      have hmod : n % base < base := Nat.mod_lt n (by omega)
      exact List.forall_mem_append.mpr
        ⟨ih _ hdiv, List.forall_mem_singleton.mpr (staysOnLine_digitChar _ (by omega))⟩

theorem oneLine_toString (n : Nat) : OneLine (toString n) :=
  oneLine_ofList (staysOnLine_of_mem_toDigits (by decide) (by decide))

theorem oneLine_fraction (places n : Nat) : OneLine (Decimal.fraction places n) := by
  simp only [Decimal.fraction]
  split
  · decide
  · refine oneLine_ofList (List.forall_mem_cons.mpr ⟨by decide, fun c hc => ?_⟩)
    have hm := (List.dropWhile_sublist _).subset (List.mem_reverse.mp hc)
    rcases List.mem_append.mp (List.mem_reverse.mp hm) with hzero | hdigit
    · rw [List.eq_of_mem_replicate hzero]
      decide
    · exact staysOnLine_of_mem_toDigits (by decide) (by decide) c hdigit

theorem Duration.oneLine_text (d : Duration) : OneLine d.text := by
  simp only [text]
  split_ifs
  · exact .append (.append (oneLine_toString _) (oneLine_fraction _ _)) (by decide)
  · exact .append (.append (oneLine_toString _) (oneLine_fraction _ _)) (by decide)
  · exact .append (.append (oneLine_toString _) (oneLine_fraction _ _)) (by decide)
  · exact .append (oneLine_toString _) (by decide)

/-! ## Quoted text -/

theorem staysOnLine_of_mem_escape {c : Char} : ∀ d ∈ Quoted.escape c, StaysOnLine d := by
  unfold Quoted.escape
  split
  case h_7 hn hr _ _ =>
    split
    · exact List.forall_mem_singleton.mpr ⟨hr, hn⟩
    · have hdigits : ∀ d ∈ Nat.toDigits 16 c.toNat, StaysOnLine d :=
        staysOnLine_of_mem_toDigits (by decide) (by decide)
      simp only [List.cons_append, List.forall_mem_cons, List.forall_mem_append]
      exact ⟨by decide, by decide, by decide, hdigits, by decide, nofun⟩
  all_goals simp [StaysOnLine]

/-- Whatever the text, between quotes it is on one line. -/
theorem oneLine_quote (text : String) : OneLine (Quoted.quote text) := by
  refine oneLine_ofList (List.forall_mem_cons.mpr ⟨by decide, List.forall_mem_append.mpr ⟨?_, ?_⟩⟩)
  · exact List.forall_mem_flatMap.mpr fun _ _ => staysOnLine_of_mem_escape
  · exact List.forall_mem_singleton.mpr (by decide)

/-! ## Messages -/

theorem Utf8.Fault.oneLine_message (f : Fault) : OneLine f.message := by
  unfold message
  split
  · exact .append (.append (.append (by decide) (oneLine_toString _)) (by decide))
      (oneLine_toString _)
  · exact .append (by decide) (oneLine_toString _)

theorem HeaderBlock.Fault.oneLine_message (f : Fault) : OneLine f.message := by
  cases f with
  | malformed => decide
  | duplicate name => exact .append (by decide) (oneLine_quote name)
  | notText fault => exact .append (by decide) fault.oneLine_message

theorem Reader.Fault.oneLine_message (f : Fault) : OneLine f.message := by
  cases f with
  | headersTooLarge size limit =>
    exact .append (.append (.append (by decide) (oneLine_toString size)) (by decide))
      (oneLine_toString limit)
  | headers fault => exact fault.oneLine_message
  | _ => decide

theorem Refusal.oneLine_message (r : Refusal) : OneLine r.message := by
  cases r with
  | malformedContentLength value => exact .append (by decide) (oneLine_quote value)
  | bodyTooLarge size limit =>
    exact .append (.append (.append (by decide) (oneLine_toString size)) (by decide))
      (oneLine_toString limit)
  | unsupportedVersion version => exact .append (by decide) (oneLine_quote version)
  | _ => decide

theorem Connection.Rejection.oneLine_message (r : Rejection) : OneLine r.message := by
  cases r with
  | unreadable fault => exact fault.oneLine_message
  | refused refusal => exact refusal.oneLine_message

theorem Obstacle.oneLine_missingVariable {name : String} (h : OneLine name) :
    OneLine (missingVariable name).message :=
  .append (by decide) h

theorem Obstacle.oneLine_sleepOutOfRange (units : Nat) (unit : Duration) :
    OneLine (sleepOutOfRange units unit).message :=
  .append (.append (.append (.append (by decide) (oneLine_toString units)) (by decide))
    unit.oneLine_text) (by decide)

end ScgiStub
