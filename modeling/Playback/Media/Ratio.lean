import Playback.Scalar

/-!
# Ratios

A ratio of two integers, used for time bases, frame rates and aspect ratios. A time base is the
length in seconds of one tick of a stream's timestamps; `Ratio.seconds` and `Ratio.ticks` convert
between the two.
-/

namespace Playback

/-- A quotient of two integers, kept unreduced; the denominator may be zero. -/
structure Ratio where
  num : Int
  den : Int
  deriving DecidableEq, Inhabited

namespace Ratio

variable {S : Type} [Scalar S]

/-- The quotient as a number; zero if the denominator is. -/
def value (r : Ratio) : S :=
  if r.den = 0 then 0.0 else Scalar.ofInt r.num / Scalar.ofInt r.den

/-- Holds if neither term is zero. -/
def isValid (r : Ratio) : Bool :=
  r.num != 0 && r.den != 0

/-- The length in seconds of `n` ticks of the time base `r`. -/
def seconds (r : Ratio) (n : Int) : S :=
  Scalar.ofInt n * r.value

/-- The number of ticks of the time base `r` nearest to `t` seconds. -/
def ticks (r : Ratio) (t : S) : Int :=
  let unit : S := r.value
  if unit == 0.0 then 0 else Scalar.toInt64 (Scalar.round (t / unit))

end Ratio

end Playback
