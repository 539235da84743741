import Playback.Scalar

/-!
# Exact scalars

The rational numbers as scalars. Every operation is exact, every value is a finite number, and the
conversions to 64-bit integers still go to the nearest end of the range. Laws about timing that
hold of the formulas, and not of their rounding, are stated on this instance.
-/

namespace Playback

namespace Exact

/-- The nearest integer to a rational number; a half goes away from zero. -/
def round (x : Rat) : Int :=
  if x < 0 then -((-x + 1 / 2).floor) else (x + 1 / 2).floor

/-- Drops the fraction of a rational number. -/
def truncate (x : Rat) : Int :=
  if x < 0 then -((-x).floor) else x.floor

end Exact

instance : Scalar Rat where
  decLt := fun a b => inferInstanceAs (Decidable (a < b))
  decLe := fun a b => inferInstanceAs (Decidable (a ≤ b))
  ofNat n := (n : Rat)
  ofInt n := (n : Rat)
  isNaN _ := false
  isFinite _ := true
  abs x := if x < 0 then -x else x
  floor x := (x.floor : Rat)
  ceil x := (x.ceil : Rat)
  round x := (Exact.round x : Rat)
  toInt64 x := Max.max int64Min (Min.min int64Max (Exact.truncate x))
  toNat64 x := Min.min nat64Max (Exact.truncate x).toNat

end Playback
