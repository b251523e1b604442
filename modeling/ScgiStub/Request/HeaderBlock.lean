import ScgiStub.Environment
import ScgiStub.Text.Quoted
import ScgiStub.Text.Utf8

/-! # Header blocks

A header block is a row of fields, each ended by a NUL byte: a name, its value,
the next name, and so on. Decoding adds the pairs to an environment one by one
and keeps what it has added when it meets a wrong pair.
-/

namespace ScgiStub.HeaderBlock

inductive Fault where
  | malformed
  | duplicate (name : String)
  | notText (fault : Utf8.Fault)
  deriving DecidableEq, Repr

def Fault.message : Fault → String
  | .malformed => "malformed header block"
  | .duplicate name => s!"duplicate header {Quoted.quote name}"
  | .notText fault => s!"header block is not UTF-8: {fault.message}"

/-- The fields of a block, and the bytes after its last NUL. -/
def split : Bytes → List Bytes × Bytes
  | [] => ([], [])
  | b :: bs =>
    let (fields, tail) := split bs
    if b = 0 then ([] :: fields, tail)
    else
      match fields with
      | [] => ([], b :: tail)
      | field :: fields => ((b :: field) :: fields, tail)

/-- Adds the pair of a name field and a value field. A name that is there
already gets the new value before it is reported. -/
def addPair (env : Environment) (name value : Bytes) : Except Fault Unit × Environment :=
  if name = [] then (.error .malformed, env)
  else
    match Utf8.decode name with
    | .error fault => (.error (.notText fault), env)
    | .ok name =>
      match Utf8.decode value with
      | .error fault => (.error (.notText fault), env)
      | .ok value =>
        (if env.contains name then .error (.duplicate name) else .ok (), env.insert name value)

/-- Adds the pairs of a row of fields, up to the first that is wrong. -/
def addFields (env : Environment) : List Bytes → Except Fault Unit × Environment
  | [] => (.ok (), env)
  | [_] => (.error .malformed, env)
  | name :: value :: fields =>
    match addPair env name value with
    | (.error fault, env) => (.error fault, env)
    | (.ok (), env) => addFields env fields

def decode (env : Environment) (block : Bytes) : Except Fault Unit × Environment :=
  match split block with
  | (fields, []) => addFields env fields
  | (_, _ :: _) => (.error .malformed, env)

def field (s : String) : Bytes :=
  Utf8.encode s ++ [0]

def encode (pairs : List (String × String)) : Bytes :=
  pairs.flatMap fun (name, value) => field name ++ field value

@[simp] theorem encode_nil : encode [] = [] := rfl

@[simp] theorem encode_cons (name value : String) (pairs : List (String × String)) :
    encode ((name, value) :: pairs) = field name ++ (field value ++ encode pairs) := by
  simp [encode]

theorem split_append {bs : Bytes} (h : (0 : UInt8) ∉ bs) (rest : Bytes) :
    split (bs ++ 0 :: rest) = (bs :: (split rest).1, (split rest).2) := by
  induction bs with
  | nil => simp [split]
  | cons b bs ih =>
    have hb : b ≠ 0 := fun h0 => h (h0 ▸ List.mem_cons_self)
    rw [List.cons_append, split, ih fun hm => h (List.mem_cons_of_mem b hm)]
    simp [hb]

theorem flatten_split (block : Bytes) :
    (split block).1.flatMap (· ++ [0]) ++ (split block).2 = block := by
  induction block with
  | nil => rfl
  | cons b bs ih =>
    cases hs : split bs with
    | mk fields tail =>
      rw [hs] at ih
      by_cases hb : b = 0
      · simpa [split, hs, hb] using ih
      · cases fields <;> simp_all [split]

end ScgiStub.HeaderBlock
