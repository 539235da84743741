import Playback.Scalar

/-!
# Speed of the external clock

A live source sets the pace. When its packet queues run dry the external clock slows down, when
they fill up it speeds up, and otherwise it returns to normal speed step by step.
-/

namespace Playback

variable {S : Type} [Scalar S]

/-- At most this many queued packets slow the clock down. -/
def scarcePackets : Nat := 2

/-- More than this many queued packets speed the clock up. -/
def amplePackets : Nat := 10

/-- Lowest speed of the external clock. -/
def externalSpeedMin : S := 0.900

/-- Highest speed of the external clock. -/
def externalSpeedMax : S := 1.010

/-- One step of the external clock's speed. -/
def externalSpeedStep : S := 0.001

/-- The next speed, where `queued` is the smallest number of packets in a queue. -/
def externalSpeed (speed : S) (queued : Nat) : S :=
  if queued ≤ scarcePackets then Scalar.max (speed - externalSpeedStep) externalSpeedMin
  else if amplePackets < queued then Scalar.min (speed + externalSpeedStep) externalSpeedMax
  else if speed == 1.0 then speed
  else speed + externalSpeedStep * (1.0 - speed) / Scalar.abs (1.0 - speed)

end Playback
