import ScgiStub.Duration

/-! # Clocks

A clock counts nanoseconds from a start of its own, and may show a time before it.
-/

namespace ScgiStub

@[ext]
structure Moment where
  nanoseconds : Int
  deriving DecidableEq, Repr, Inhabited

namespace Moment

/-- A clock that has run for so long. -/
instance : Coe Duration Moment := ⟨fun d => ⟨d.nanoseconds⟩⟩

def ofSeconds (n : Int) : Moment :=
  ⟨n * Duration.perSecond⟩

def plus (t : Moment) (d : Duration) : Moment :=
  ⟨t.nanoseconds + d.nanoseconds⟩

instance : LE Moment := ⟨fun t t' => t.nanoseconds ≤ t'.nanoseconds⟩

instance : LT Moment := ⟨fun t t' => t.nanoseconds < t'.nanoseconds⟩

instance (t t' : Moment) : Decidable (t ≤ t') :=
  inferInstanceAs (Decidable (t.nanoseconds ≤ t'.nanoseconds))

instance (t t' : Moment) : Decidable (t < t') :=
  inferInstanceAs (Decidable (t.nanoseconds < t'.nanoseconds))

def later (t t' : Moment) : Moment :=
  if t ≤ t' then t' else t

end Moment

end ScgiStub
