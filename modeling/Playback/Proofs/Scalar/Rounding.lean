import Mathlib.Algebra.Order.Field.Rat
import Mathlib.Data.Rat.Floor
import Mathlib.Tactic.Linarith
import Mathlib.Tactic.NormNum
import Mathlib.Tactic.Ring
import Playback.Scalar.Exact

/-!
# Rounding to integers

Conversions of scalars to 64-bit integers never leave 64 bits (`Scalar.Saturates`). Of exact scalars
they only drop the fraction, so a number that is an integer and fits stays as it is, and a number
rounded down or up becomes its floor or its ceiling.
-/

namespace Playback

/-- Conversions to integers go to the nearest end of what 64 bits hold. -/
class Scalar.Saturates (S : Type) [Scalar S] : Prop where
  fits_toInt64 : ∀ x : S, FitsInt64 (Scalar.toInt64 x)

instance : Scalar.Saturates Rat where
  fits_toInt64 x := by
    show int64Min ≤ max int64Min (min int64Max (Exact.truncate x)) ∧
      max int64Min (min int64Max (Exact.truncate x)) ≤ int64Max
    unfold int64Min int64Max
    omega

instance : Scalar.Saturates Float where
  fits_toInt64 x := by
    have hlower := Int64.le_toInt x.toInt64
    have hupper := Int64.toInt_lt x.toInt64
    show int64Min ≤ x.toInt64.toInt ∧ x.toInt64.toInt ≤ int64Max
    unfold int64Min int64Max
    omega

namespace Exact

theorem truncate_intCast (n : Int) : truncate (n : Rat) = n := by
  unfold truncate
  split
  · rw [← Int.cast_neg, Rat.floor_intCast, Int.neg_neg]
  · exact Rat.floor_intCast n

theorem toInt64_intCast (n : Int) :
    Scalar.toInt64 (n : Rat) = max int64Min (min int64Max n) := by
  show max int64Min (min int64Max (truncate (n : Rat))) = _
  rw [truncate_intCast]

/-- The largest integral number not above `x`, as far as 64 bits hold it. -/
theorem toNat64_floor (x : Rat) : Scalar.toNat64 (Scalar.floor x) = min nat64Max ⌊x⌋₊ := by
  show min nat64Max (truncate (⌊x⌋ : Rat)).toNat = _
  rw [truncate_intCast, Int.floor_toNat]

/-- The smallest integral number not below `x`, as far as 64 bits hold it. -/
theorem toNat64_ceil (x : Rat) : Scalar.toNat64 (Scalar.ceil x) = min nat64Max ⌈x⌉₊ := by
  have hceil : x.ceil = ⌈x⌉ := eq_of_forall_ge_iff fun n => by rw [Rat.ceil_le_iff, Int.ceil_le]
  show min nat64Max (truncate (x.ceil : Rat)).toNat = _
  rw [truncate_intCast, hceil, Int.ceil_toNat]

end Exact

end Playback
