import Playback.Scalar

/-!
# Clocks

A `Clock` knows the presentation time of a stream. It keeps a base, the presentation time at the
moment `lastUpdated`, the drift between these two, and a speed; its value at a later moment `now` is

  `drift + now - (now - lastUpdated) * (1 - speed)`,

that is `base + (now - lastUpdated) * speed` if the drift is `base - lastUpdated`. A paused clock
stays at its base. Every operation that moves the base or the moment has to store the drift anew.

A stream's clock speaks for the epoch (serial number) of the stream's packet queue. Such a clock
is read together with the current epoch of its queue, and it is silent once the queue is in
another epoch than the one the clock was set in. A clock bound to no queue is read with `none`.

No operation looks at the time by itself; each takes the moment at which it happens.
-/

namespace Playback

/-- Presentation time of one stream. -/
structure Clock (S : Type) where
  /-- Presentation time at `lastUpdated`; none until the clock is set. -/
  base : Option S
  /-- How far the base is ahead of `lastUpdated`. It is not read until the clock is set. -/
  drift : S
  lastUpdated : S
  speed : S
  /-- Epoch that the clock was set in. -/
  serial : Nat
  paused : Bool

namespace Clock

variable {S : Type} [Scalar S]

/-- A clock that was never set. -/
def new (now : S) : Clock S where
  base := none
  drift := 0.0
  lastUpdated := now
  speed := 1.0
  serial := 0
  paused := false

/-- Whether the clock was set in the epoch it is asked for. -/
def isCurrent (c : Clock S) (epoch : Option Nat) : Bool :=
  match epoch with
  | none => true
  | some serial => c.serial = serial

/-- The clock's value at `now`, whatever its epoch. -/
def valueAt (c : Clock S) (now : S) : Option S :=
  c.base.map fun base =>
    if c.paused then base
    else c.drift + now - (now - c.lastUpdated) * (1.0 - c.speed)

/-- The clock's value at `now`, if it was set in the given epoch. -/
def read (c : Clock S) (epoch : Option Nat) (now : S) : Option S :=
  if c.isCurrent epoch then c.valueAt now else none

/-- Sets the clock to `pts` as of the moment `time`. If `pts` is not a finite number the clock
becomes silent. -/
def setAt (c : Clock S) (pts : S) (serial : Nat) (time : S) : Clock S :=
  { c with
    base := if Scalar.isFinite pts then some pts else none
    drift := pts - time
    lastUpdated := time
    serial := serial }

/-- Makes the clock silent as of the moment `time`. -/
def clearAt (c : Clock S) (serial : Nat) (time : S) : Clock S :=
  { c with base := none, lastUpdated := time, serial := serial }

/-- Moves the clock's base to its value at `now`, which leaves the value as it is. -/
def anchor (c : Clock S) (now : S) : Clock S :=
  match c.valueAt now with
  | some value => c.setAt value c.serial now
  | none => c

/-- Changes the speed from the moment `now` on. -/
def setSpeed (c : Clock S) (speed now : S) : Clock S :=
  { c.anchor now with speed := speed }

/-- Lets the clock count from `now` on, at the base that it has. -/
def restart (c : Clock S) (now : S) : Clock S :=
  { c with lastUpdated := now, drift := (c.base.map (· - now)).getD c.drift }

/-- Stops the clock at its value, or lets it go on from there. -/
def setPaused (c : Clock S) (paused : Bool) (now : S) : Clock S :=
  if c.paused = paused then c
  else if paused then { c.anchor now with lastUpdated := now, paused := true }
  else { c.restart now with paused := false }

/-- Largest change of speed by which a clock is brought closer to another one. -/
def maxSpeedAdjust : S := 0.1

/-- Makes the clock follow `other`, whose value at `now` is `target`. A gap below `threshold` is
closed by a speed that differs from the other's by at most `maxSpeedAdjust`; over a larger gap,
and if the clock has no value in its epoch, it takes over the other's value. Nothing happens if
the other clock is silent. -/
def syncTo (c : Clock S) (epoch : Option Nat) (other : Clock S) (target : Option S)
    (threshold now : S) : Clock S :=
  match target with
  | none => c
  | some target =>
    let snap : Clock S := { c.setAt target other.serial now with speed := other.speed }
    match c.read epoch now with
    | none => snap
    | some value =>
      if Scalar.abs (value - target) < threshold then
        let gap := value - target
        let correction := Scalar.clamp (-gap / threshold) (-1.0) 1.0 * maxSpeedAdjust
        { c.setAt value c.serial now with speed := other.speed + correction }
      else snap

end Clock

end Playback
