import Playback.Scalar

/-!
# Manual time

A source of time that moves only when it is told to, in whole microseconds. Simulated sessions
take their `now` from it.
-/

namespace Playback

/-- Microseconds since the origin of a simulated time. -/
structure ManualTime where
  micros : Nat
  deriving DecidableEq, Inhabited

namespace ManualTime

variable {S : Type} [Scalar S]

/-- The time at the given number of seconds, cut to a microsecond and not before the origin. -/
def ofSeconds (t : S) : ManualTime :=
  ⟨Scalar.toNat64 (Scalar.max t 0.0 * 1000000.0)⟩

/-- The time `micros` later. -/
def advance (t : ManualTime) (micros : Nat) : ManualTime :=
  ⟨t.micros + micros⟩

/-- The time in seconds. -/
def seconds (t : ManualTime) : S :=
  Scalar.ofNat t.micros / 1000000.0

end ManualTime

end Playback
