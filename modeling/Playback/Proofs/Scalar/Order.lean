import Mathlib.Algebra.Order.Field.Rat
import Mathlib.Algebra.Order.Group.Abs
import Playback.Scalar.Exact

/-!
# The order of exact scalars

On the rationals the comparisons of scalars are those of the linear order. Nothing there fails to be
a number, so `Scalar.max` and `Scalar.min` never fall back on their other argument.
-/

namespace Playback

namespace Exact

variable {x lo hi : Rat}

theorem max_eq (x y : Rat) : Scalar.max x y = max x y := by
  show (if x < y then y else x) = max x y
  split_ifs with h
  · exact (max_eq_right h.le).symm
  · exact (max_eq_left (not_lt.1 h)).symm

theorem min_eq (x y : Rat) : Scalar.min x y = min x y := by
  show (if y < x then y else x) = min x y
  split_ifs with h
  · exact (min_eq_right h.le).symm
  · exact (min_eq_left (not_lt.1 h)).symm

theorem abs_eq (x : Rat) : Scalar.abs x = |x| := by
  show (if x < 0 then -x else x) = |x|
  split_ifs with h
  · exact (abs_of_neg h).symm
  · exact (abs_of_nonneg (not_lt.1 h)).symm

theorem clamp_eq (h : lo ≤ hi) : Scalar.clamp x lo hi = max lo (min hi x) := by
  unfold Scalar.clamp
  split_ifs with hlow hhigh
  · exact (max_eq_left ((min_le_right hi x).trans hlow.le)).symm
  · rw [min_eq_left hhigh.le, max_eq_right h]
  · rw [min_eq_right (not_lt.1 hhigh), max_eq_right (not_lt.1 hlow)]

end Exact

end Playback
